import ChatNow.Conversation.EsReplay
import ChatNow.Identity.EsReplay
import ChatNow.Lib.Labelled
import ChatNow.Lib.LastWins

/-!
# The search index and the database

How the documents of the index follow the rows. An update is committed, and after that its request
writes to the index, up to three times; if the index refuses, the payload goes to the outbox, a
sorted set in Redis that every instance of the service looks through every five seconds
(`start_es_outbox_reaper`). Nothing else orders the writes: neither they nor the payloads carry a
version. The conversation service and the identity service have the same loop and the same reaper,
for other documents (`conversationIndex`, `userIndex`).

* `indexMachine`: the requests, the outbox and the reapers, with any failure of the index. A write
  that the index has not answered may still be executed later (`late`).
* `Sound`: what a step assumes; above all that no write reaches a document after the write of an
  update committed later (`InOrder`).
* `documents_converge`: then the documents are those that the updates leave, one after the other.

Without it a payload that has waited in the outbox is written over a newer document, or over none
(`document_resurrected`).
-/

namespace ChatNow

open LastWins

/-! ### The service -/

/-- A service with an index: its updates, what each of them writes, and how that is replayed. -/
structure IndexService where
  Update : Type
  Text : Type
  [decEq : DecidableEq Text]
  direct : Update → EsRequest
  payload : Update → Text
  replay : Text → Option EsRequest
  /-- The updates that the payload has all of. -/
  Replayable : Update → Prop
  replay_payload {u : Update} : Replayable u → replay (payload u) = some (direct u)

instance (S : IndexService) : DecidableEq S.Text := S.decEq

/-- A write of the conversation service that the payload has all of. -/
def EsWrite.Replayable : EsWrite → Prop
  | upsert c _ => ChatNow.Replayable c
  | delete _ => True
  | upd_members _ _ => True

/-- The conversation service. -/
def conversationIndex (lib : JsonLib) : IndexService where
  Update := EsWrite
  Text := lib.Text
  decEq := lib.decEq
  direct := EsWrite.direct
  payload := EsWrite.outboxPayload lib
  replay := replay_es_write_ lib
  Replayable := EsWrite.Replayable
  replay_payload {w} hw := by
    cases w with
    | upsert c mids => exact replay_upsert_eq_iff.2 hw
    | delete cid => exact replay_delete cid
    | upd_members cid mids => exact replay_upd_members cid mids

/-- The identity service. -/
def userIndex (lib : JsonLib) : IndexService where
  Update := UserDoc
  Text := lib.Text
  decEq := lib.decEq
  direct := ESUser.append_data
  payload := ESUser.outbox_payload_upsert_ lib
  replay := ESUser.replay_es_write_ lib
  Replayable _ := True
  replay_payload {u} _ := ESUser.replay_payload u

/-! ### The machine -/

/-- Where a reaper is: at the payloads of its round that are left, the first of them next; or behind
the replay of one, before it removes it. `known` is how many updates had been committed when it was
replayed. -/
inductive Reaper (Text : Type)
  | replaying (items : List Text)
  | removing (item : Text) (items : List Text) (known : ℕ)

structure IndexState (S : IndexService) where
  index : String → Option Document
  /-- The updates, in the order of their commits. -/
  committed : List S.Update
  /-- For each update, how often its request has tried to write, while it is in flight. -/
  requests : List (Option ℕ)
  outbox : List S.Text
  reapers : ℕ → Reaper S.Text
  /-- The writes that have been given up without an answer. -/
  unanswered : List EsRequest
  /-- What the index has executed, each write with the number of the last update that it is of. -/
  executed : List (ℕ × EsRequest)
  /-- The updates whose payload is in the outbox. -/
  enqueued : List ℕ

namespace IndexState

variable {S : IndexService}

def init : IndexState S where
  index _ := none
  committed := []
  requests := []
  outbox := []
  reapers _ := .replaying []
  unanswered := []
  executed := []
  enqueued := []

/-- The writes of the updates. -/
def writes (s : IndexState S) : List EsRequest := s.committed.map S.direct

/-- The index executes a write. -/
def execute (s : IndexState S) (r : EsRequest) : IndexState S :=
  { s with
    index := r.run s.index
    executed := s.executed ++ [(lastIdx s.writes r, r)] }

/-- The payload of an update. -/
def payloadOf (s : IndexState S) (i : ℕ) : Option S.Text := s.committed[i]?.map S.payload

/-- The document that the updates leave, each written when it is committed. -/
def documentOf (s : IndexState S) (id : String) : Option Document :=
  after EsRequest.act (s.writes.filter (·.id = id)) none

/-- No write of an update committed later has reached the document. -/
def InOrder (s : IndexState S) (r : EsRequest) : Prop :=
  ∀ p ∈ s.executed, p.2.id = r.id → p.1 ≤ lastIdx s.writes r

instance (s : IndexState S) (r : EsRequest) : Decidable (s.InOrder r) :=
  inferInstanceAs (Decidable (∀ p ∈ s.executed, _))

end IndexState

inductive IndexStep (S : IndexService)
  /-- An update is committed, and its request goes on to the index. -/
  | commit (u : S.Update)
  /-- A turn of the loop of `retry_es_write_`. -/
  | attempt (i : ℕ) (ok : Bool)
  /-- `ESOutbox::enqueue`, which swallows a failure. -/
  | enqueue (i : ℕ) (ok : Bool)
  /-- `ESOutbox::peek`. Which payloads come first is left open. -/
  | peek (k : ℕ) (items : List S.Text)
  /-- `replay_es_write_`. -/
  | replay (k : ℕ) (ok : Bool)
  /-- `ESOutbox::remove`, which swallows a failure. -/
  | remove (k : ℕ) (ok : Bool)
  /-- The index executes a write that its caller has given up. -/
  | late (n : ℕ)

open IndexState

/-- The service and its index. -/
def indexMachine (S : IndexService) : Labelled (IndexState S) (IndexStep S) where
  step
    | .commit u, s => some
      { s with committed := s.committed ++ [u], requests := s.requests ++ [some 0] }
    | .attempt i ok, s =>
      match s.requests[i]?, s.committed[i]? with
      | some (some n), some u =>
        let r := S.direct u
        if n < 3 then
          if ok then
            if r.accepted (s.index r.id) then
              some { s.execute r with requests := s.requests.set i none }
            else none
          else some
            { s with requests := s.requests.set i (some (n + 1)), unanswered := r :: s.unanswered }
        else none
      | _, _ => none
    | .enqueue i ok, s =>
      match s.requests[i]?, s.committed[i]? with
      | some (some n), some u =>
        if n = 3 then
          if ok then some
            { s with
              requests := s.requests.set i none
              outbox := s.outbox.insert (S.payload u)
              enqueued := i :: s.enqueued }
          else some { s with requests := s.requests.set i none }
        else none
      | _, _ => none
    | .peek k items, s =>
      match s.reapers k with
      | .replaying [] =>
        if (∀ p ∈ items, p ∈ s.outbox) ∧ items.length ≤ 50 then
          some { s with reapers := Function.update s.reapers k (.replaying items) }
        else none
      | _ => none
    | .replay k ok, s =>
      match s.reapers k with
      | .replaying (p :: items) =>
        match S.replay p with
        | some r =>
          if ok then
            if r.accepted (s.index r.id) then some
              { s.execute r with
                reapers := Function.update s.reapers k (.removing p items s.committed.length) }
            else none
          else some
            { s with
              reapers := Function.update s.reapers k (.replaying items)
              unanswered := r :: s.unanswered }
        | none =>
          if ok then none
          else some { s with reapers := Function.update s.reapers k (.replaying items) }
      | _ => none
    | .remove k ok, s =>
      match s.reapers k with
      | .removing p items _ =>
        if ok then some
          { s with
            reapers := Function.update s.reapers k (.replaying items)
            outbox := s.outbox.filter (· ≠ p)
            enqueued := s.enqueued.filter fun i ↦ s.payloadOf i ≠ some p }
        else some { s with reapers := Function.update s.reapers k (.replaying items) }
      | _ => none
    | .late n, s =>
      match s.unanswered[n]? with
      | some r => some { s.execute r with unanswered := s.unanswered.eraseIdx n }
      | none => none

/-! ### What a step assumes -/

/-- The payload that a reaper replays next. -/
def Reaper.next {Text : Type} : Reaper Text → Option Text
  | replaying items => items.head?
  | removing _ _ _ => none

/-- The payload that a reaper removes next, and how many updates there were when it was replayed. -/
def Reaper.replayed {Text : Type} : Reaper Text → Option (Text × ℕ)
  | replaying _ => none
  | removing item _ known => some (item, known)

/-- What the steps assume:
* a write that the index executes is in order, be it direct, replayed or late;
* a payload that is replayed has all of the updates that it is of;
* a payload gets into the outbox;
* it is removed only if no update has been enqueued under it that was committed after the replay. -/
def Sound {S : IndexService} : IndexStep S → IndexState S → Prop
  | .attempt i true, s => ∀ u ∈ s.committed[i]?, s.InOrder (S.direct u)
  | .enqueue _ ok, _ => ok = true
  | .replay k true, s => ∀ p ∈ (s.reapers k).next, ∀ u ∈ s.committed, S.payload u = p →
    S.Replayable u ∧ s.InOrder (S.direct u)
  | .remove k true, s => ∀ q ∈ (s.reapers k).replayed, ∀ i ∈ s.enqueued,
    s.payloadOf i = some q.1 → i < q.2
  | .late n, s => ∀ r ∈ s.unanswered[n]?, r ∈ s.writes ∧ s.InOrder r
  | _, _ => True

instance {S : IndexService} [DecidablePred S.Replayable] : ∀ i s, Decidable (Sound (S := S) i s)
  | .commit _, _ => .isTrue trivial
  | .attempt i true, s =>
    inferInstanceAs (Decidable (∀ u ∈ s.committed[i]?, s.InOrder (S.direct u)))
  | .attempt _ false, _ => .isTrue trivial
  | .enqueue _ ok, _ => inferInstanceAs (Decidable (ok = true))
  | .peek _ _, _ => .isTrue trivial
  | .replay k true, s =>
    inferInstanceAs (Decidable (∀ p ∈ (s.reapers k).next, ∀ u ∈ s.committed, S.payload u = p →
      S.Replayable u ∧ s.InOrder (S.direct u)))
  | .replay _ false, _ => .isTrue trivial
  | .remove k true, s =>
    inferInstanceAs (Decidable (∀ q ∈ (s.reapers k).replayed, ∀ i ∈ s.enqueued,
      s.payloadOf i = some q.1 → i < q.2))
  | .remove _ false, _ => .isTrue trivial
  | .late n, s =>
    inferInstanceAs (Decidable (∀ r ∈ s.unanswered[n]?, r ∈ s.writes ∧ s.InOrder r))

/-! ### What is known of each update -/

/-- The payloads that a reaper still has to replay. -/
def Reaper.items {Text : Type} : Reaper Text → List Text
  | replaying items => items
  | removing _ items _ => items

section Converging

variable {S : IndexService} {s s' : IndexState S} {r : EsRequest} {i : ℕ} {u : S.Update}

/-- The index has executed the write of an update, since it was committed. -/
def IndexState.Done (s : IndexState S) (i : ℕ) (u : S.Update) : Prop :=
  ∃ q ∈ s.executed, i ≤ q.1 ∧ q.2 = S.direct u

/-- Every update is done, in flight, or in the outbox; and the index shows what it has executed. -/
structure Converging (s : IndexState S) : Prop where
  shows : ∀ id, s.index id =
    after EsRequest.act ((s.executed.filter (·.2.id = id)).map (·.2)) none
  genuine : ∀ p ∈ s.executed, s.writes[p.1]? = some p.2
  sorted : s.executed.Pairwise fun p q ↦ p.2.id = q.2.id → p.1 ≤ q.1
  length_requests : s.requests.length = s.committed.length
  placed : ∀ {i u}, s.committed[i]? = some u →
    s.Done i u ∨ (∃ n, s.requests[i]? = some (some n)) ∨ i ∈ s.enqueued
  held : ∀ i ∈ s.enqueued, ∃ p ∈ s.outbox, s.payloadOf i = some p
  outboxed : ∀ p ∈ s.outbox, ∃ u ∈ s.committed, S.payload u = p
  round : ∀ k, ∀ p ∈ (s.reapers k).items, ∃ u ∈ s.committed, S.payload u = p
  removing : ∀ {k p items n}, s.reapers k = .removing p items n →
    n ≤ s.committed.length ∧
      ∀ {i u}, i < n → s.committed[i]? = some u → S.payload u = p → s.Done i u

theorem converging_init : Converging (S := S) .init where
  shows _ := rfl
  genuine _ hp := by cases hp
  sorted := List.Pairwise.nil
  length_requests := rfl
  placed hu := by cases hu
  held _ hi := by cases hi
  outboxed _ hp := by cases hp
  round _ _ hp := by cases hp
  removing hk := by cases hk

theorem IndexState.writes_get (h : s.committed[i]? = some u) :
    s.writes[i]? = some (S.direct u) := by
  rw [writes, List.getElem?_map, h]
  rfl

theorem IndexState.direct_mem_writes (h : u ∈ s.committed) : S.direct u ∈ s.writes :=
  List.mem_map_of_mem h

theorem IndexState.Done.execute (h : s.Done i u) : (s.execute r).Done i u := by
  obtain ⟨q, hq, hi, hu⟩ := h
  exact ⟨q, List.mem_append_left _ hq, hi, hu⟩

/-- A write that is executed is a write of every update of that content. -/
theorem IndexState.done_execute (hu : s.committed[i]? = some u) :
    (s.execute (S.direct u)).Done i u :=
  ⟨_, List.mem_append_right _ List.mem_cons_self, le_lastIdx (writes_get hu), rfl⟩

/-- The index executes a write in order. -/
theorem Converging.execute (h : Converging s) (hr : r ∈ s.writes) (ho : s.InOrder r) :
    Converging (s.execute r) where
  shows id := by
    have hexec : (s.execute r).executed = s.executed ++ [(lastIdx s.writes r, r)] := rfl
    have hrun : (s.execute r).index id = r.run s.index id := rfl
    rw [hexec, hrun, List.filter_append, List.map_append, EsRequest.run]
    rcases eq_or_ne id r.id with rfl | hne
    · rw [Function.update_self, List.filter_singleton, decide_eq_true rfl]
      exact (congrArg r.act (h.shows _)).trans after_concat.symm
    · rw [Function.update_of_ne hne, List.filter_singleton, decide_eq_false hne.symm]
      simpa using h.shows id
  genuine p hp := by
    rcases List.mem_append.1 hp with hp | hp
    · exact h.genuine p hp
    · obtain rfl := List.mem_singleton.1 hp
      exact getElem?_lastIdx hr
  sorted := by
    refine List.pairwise_append.2 ⟨h.sorted, List.pairwise_singleton _ _, fun p hp q hq ↦ ?_⟩
    obtain rfl := List.mem_singleton.1 hq
    exact ho p hp
  length_requests := h.length_requests
  placed hu := (h.placed hu).imp_left .execute
  held := h.held
  outboxed := h.outboxed
  round := h.round
  removing hk := ⟨(h.removing hk).1, fun hi hu hp ↦ ((h.removing hk).2 hi hu hp).execute⟩

/-! ### One step -/

/-- A commit leaves the earlier updates where they are. -/
theorem getElem?_commit {l : List S.Update} (h : l[i]? = some u) (v : S.Update) :
    (l ++ [v])[i]? = some u := by
  rw [List.getElem?_append_left (List.getElem?_eq_some_iff.1 h).1, h]

/-- A new update is in flight. -/
theorem Converging.commit (h : Converging s) (u : S.Update) :
    Converging { s with committed := s.committed ++ [u], requests := s.requests ++ [some 0] } where
  shows := h.shows
  genuine p hp := by
    have hget : (s.committed.map S.direct)[p.1]? = some p.2 := h.genuine p hp
    rw [List.getElem?_map, Option.map_eq_some_iff] at hget
    obtain ⟨v, hv, heq⟩ := hget
    show ((s.committed ++ [u]).map S.direct)[p.1]? = some p.2
    rw [List.getElem?_map, getElem?_commit hv u, ← heq]
    rfl
  sorted := h.sorted
  length_requests := by simp [h.length_requests]
  placed {i v} hv := by
    rw [List.getElem?_append] at hv
    split at hv
    · next hlt =>
      have hreq : (s.requests ++ [some 0])[i]? = s.requests[i]? :=
        List.getElem?_append_left (h.length_requests ▸ hlt)
      simp only [hreq]
      exact h.placed hv
    · next hge =>
      have hi : i = s.requests.length := by
        have := (List.getElem?_eq_some_iff.1 hv).1
        rw [List.length_singleton] at this
        rw [h.length_requests]
        omega
      exact .inr (.inl ⟨0, by rw [hi, List.getElem?_concat_length]⟩)
  held i hi := by
    obtain ⟨p, hp, hget⟩ := h.held i hi
    obtain ⟨v, hv, rfl⟩ := Option.map_eq_some_iff.1 hget
    exact ⟨_, hp, Option.map_eq_some_iff.2 ⟨v, getElem?_commit hv u, rfl⟩⟩
  outboxed p hp := by
    obtain ⟨v, hv, rfl⟩ := h.outboxed p hp
    exact ⟨v, List.mem_append_left _ hv, rfl⟩
  round k p hp := by
    obtain ⟨v, hv, rfl⟩ := h.round k p hp
    exact ⟨v, List.mem_append_left _ hv, rfl⟩
  removing {k p items n} hk := by
    obtain ⟨hn, hdone⟩ := h.removing hk
    refine ⟨hn.trans (by simp), fun {i v} hi hv hp ↦ hdone hi ?_ hp⟩
    rwa [List.getElem?_append_left (by omega)] at hv

/-- The request of an update ends. -/
theorem Converging.finish (h : Converging s)
    (hd : ∀ u, s.committed[i]? = some u → s.Done i u ∨ i ∈ s.enqueued) :
    Converging { s with requests := s.requests.set i none } where
  shows := h.shows
  genuine := h.genuine
  sorted := h.sorted
  length_requests := (List.length_set ..).trans h.length_requests
  placed {j v} hv := by
    rcases eq_or_ne i j with rfl | hne
    · rcases hd v hv with hd | he
      · exact .inl hd
      · exact .inr (.inr he)
    · simp only [List.getElem?_set_ne hne]
      exact h.placed hv
  held := h.held
  outboxed := h.outboxed
  round := h.round
  removing := h.removing

/-- The request of an update has failed once more. -/
theorem Converging.retry (h : Converging s) (n : ℕ) :
    Converging { s with requests := s.requests.set i (some n) } where
  shows := h.shows
  genuine := h.genuine
  sorted := h.sorted
  length_requests := (List.length_set ..).trans h.length_requests
  placed {j v} hv := by
    rcases eq_or_ne i j with rfl | hne
    · have hlt : i < s.requests.length := by
        rw [h.length_requests]
        exact (List.getElem?_eq_some_iff.1 hv).1
      exact .inr (.inl ⟨n, by rw [List.getElem?_set_self hlt]⟩)
    · simp only [List.getElem?_set_ne hne]
      exact h.placed hv
  held := h.held
  outboxed := h.outboxed
  round := h.round
  removing := h.removing

/-- What has been given up matters when it is executed. -/
theorem Converging.setUnanswered (h : Converging s) (l : List EsRequest) :
    Converging { s with unanswered := l } :=
  ⟨h.shows, h.genuine, h.sorted, h.length_requests, h.placed, h.held, h.outboxed, h.round,
    h.removing⟩

/-- A payload goes into the outbox. -/
theorem Converging.enqueue (h : Converging s) (hu : s.committed[i]? = some u) :
    Converging { s with
      outbox := s.outbox.insert (S.payload u)
      enqueued := i :: s.enqueued } where
  shows := h.shows
  genuine := h.genuine
  sorted := h.sorted
  length_requests := h.length_requests
  placed hv := (h.placed hv).imp_right (·.imp_right (List.mem_cons_of_mem _))
  held j hj := by
    rcases List.mem_cons.1 hj with rfl | hj
    · exact ⟨S.payload u, List.mem_insert_self, by rw [payloadOf, hu]; rfl⟩
    · obtain ⟨p, hp, hget⟩ := h.held j hj
      exact ⟨p, List.mem_insert_of_mem hp, hget⟩
  outboxed p hp := by
    rcases List.mem_insert_iff.1 hp with rfl | hp
    · exact ⟨u, List.mem_of_getElem? hu, rfl⟩
    · exact h.outboxed p hp
  round := h.round
  removing := h.removing

/-- A reaper goes on. -/
theorem Converging.setReaper (h : Converging s) {k : ℕ} {rp : Reaper S.Text}
    (hround : ∀ p ∈ rp.items, ∃ u ∈ s.committed, S.payload u = p)
    (hrem : ∀ p items n, rp = .removing p items n → n ≤ s.committed.length ∧
      ∀ {i u}, i < n → s.committed[i]? = some u → S.payload u = p → s.Done i u) :
    Converging { s with reapers := Function.update s.reapers k rp } where
  shows := h.shows
  genuine := h.genuine
  sorted := h.sorted
  length_requests := h.length_requests
  placed := h.placed
  held := h.held
  outboxed := h.outboxed
  round k' p hp := by
    rcases eq_or_ne k' k with rfl | hne
    · exact hround p (by simpa using hp)
    · exact h.round k' p (by simpa [hne] using hp)
  removing {k' p items n} hk := by
    rcases eq_or_ne k' k with rfl | hne
    · exact hrem p items n (by simpa using hk)
    · exact h.removing (k := k') (by simpa [hne] using hk)

/-- A reaper goes on to the next payload. -/
theorem Converging.nextItem (h : Converging s) {k : ℕ} {items : List S.Text}
    (hitems : ∀ p ∈ items, ∃ u ∈ s.committed, S.payload u = p) :
    Converging { s with reapers := Function.update s.reapers k (.replaying items) } :=
  h.setReaper hitems fun _ _ _ heq ↦ by cases heq

/-- A payload leaves the outbox after its replay. -/
theorem Converging.remove (h : Converging s) {k known : ℕ} {item : S.Text} {items : List S.Text}
    (hk : s.reapers k = .removing item items known)
    (hknown : ∀ i ∈ s.enqueued, s.payloadOf i = some item → i < known) :
    Converging { s with
      outbox := s.outbox.filter (· ≠ item)
      enqueued := s.enqueued.filter fun i ↦ s.payloadOf i ≠ some item } where
  shows := h.shows
  genuine := h.genuine
  sorted := h.sorted
  length_requests := h.length_requests
  placed {i v} hv := by
    rcases h.placed hv with hd | hn | he
    · exact .inl hd
    · exact .inr (.inl hn)
    · have hpay : s.payloadOf i = some (S.payload v) := by rw [payloadOf, hv]; rfl
      by_cases heq : S.payload v = item
      · -- the replay that is being finished has written it
        have hlt := hknown i he (by rw [hpay, heq])
        exact .inl ((h.removing hk).2 hlt hv heq)
      · refine .inr (.inr (List.mem_filter.2 ⟨he, ?_⟩))
        simpa [hpay] using heq
  held i hi := by
    obtain ⟨he, hne⟩ := List.mem_filter.1 hi
    obtain ⟨p, hp, hget⟩ := h.held i he
    refine ⟨p, List.mem_filter.2 ⟨hp, ?_⟩, hget⟩
    simpa [hget] using hne
  outboxed p hp := h.outboxed p (List.mem_filter.1 hp).1
  round := h.round
  removing := h.removing

/-- What a reaper replays is a write of an update, if the payload has all of it. -/
theorem Converging.replayed (h : Converging s) {k : ℕ} {p : S.Text}
    (hp : p ∈ (s.reapers k).items) (hr : S.replay p = some r)
    (hfit : ∀ u ∈ s.committed, S.payload u = p → S.Replayable u ∧ s.InOrder (S.direct u)) :
    (r ∈ s.writes ∧ s.InOrder r) ∧ ∀ u ∈ s.committed, S.payload u = p → S.direct u = r := by
  have hdirect : ∀ u ∈ s.committed, S.payload u = p → S.direct u = r := by
    intro u hu hup
    have := S.replay_payload (hfit u hu hup).1
    rw [hup, hr] at this
    exact (Option.some.inj this).symm
  obtain ⟨u, hu, hup⟩ := h.round k p hp
  obtain rfl := hdirect u hu hup
  exact ⟨⟨direct_mem_writes hu, (hfit u hu hup).2⟩, hdirect⟩

theorem Converging.step {j : IndexStep S} (h : Converging s) (hs : Sound j s)
    (hstep : (indexMachine S).step j s = some s') : Converging s' := by
  cases j with
  | commit u =>
    obtain rfl := Option.some.inj hstep
    exact h.commit u
  | attempt i ok =>
    simp only [indexMachine] at hstep
    split at hstep
    · next n u hn hu =>
      split at hstep
      · cases ok with
        | true =>
          simp only [if_true] at hstep
          split at hstep
          · obtain rfl := Option.some.inj hstep
            have ho : s.InOrder (S.direct u) := hs u hu
            have hexec := h.execute (direct_mem_writes (List.mem_of_getElem? hu)) ho
            refine hexec.finish fun v hv ↦ .inl ?_
            obtain rfl := Option.some.inj (hu.symm.trans hv)
            exact done_execute hu
          · cases hstep
        | false =>
          obtain rfl := Option.some.inj hstep
          exact (h.retry (n + 1)).setUnanswered _
      · cases hstep
    · cases hstep
  | enqueue i ok =>
    obtain rfl : ok = true := hs
    simp only [indexMachine] at hstep
    split at hstep
    · next n u hn hu =>
      split at hstep
      · obtain rfl := Option.some.inj hstep
        exact (h.enqueue hu).finish fun v hv ↦ .inr List.mem_cons_self
      · cases hstep
    · cases hstep
  | peek k items =>
    simp only [indexMachine] at hstep
    split at hstep
    · split at hstep
      · next hitems =>
        obtain rfl := Option.some.inj hstep
        exact h.nextItem fun p hp ↦ h.outboxed p (hitems.1 p hp)
      · cases hstep
    · cases hstep
  | replay k ok =>
    simp only [indexMachine] at hstep
    split at hstep
    · next p items hk =>
      have hround := h.round k
      rw [hk] at hround
      have hrest : ∀ q ∈ items, ∃ u ∈ s.committed, S.payload u = q := fun q hq ↦
        hround q (List.mem_cons_of_mem _ hq)
      split at hstep
      · next r hr =>
        cases ok with
        | true =>
          simp only [if_true] at hstep
          split at hstep
          · obtain rfl := Option.some.inj hstep
            have hnext : p ∈ (s.reapers k).next := by
              rw [hk]
              rfl
            have hitem : p ∈ (s.reapers k).items := by
              rw [hk]
              exact List.mem_cons_self
            obtain ⟨⟨hmem, ho⟩, hdirect⟩ := h.replayed hitem hr (hs p hnext)
            refine (h.execute hmem ho).setReaper hrest fun q items' n heq ↦ ?_
            obtain ⟨rfl, -, rfl⟩ := Reaper.removing.inj heq
            refine ⟨le_rfl, fun {i u} _ hu hup ↦ ?_⟩
            obtain rfl := hdirect u (List.mem_of_getElem? hu) hup
            exact done_execute hu
          · cases hstep
        | false =>
          obtain rfl := Option.some.inj hstep
          exact (h.nextItem hrest).setUnanswered _
      · cases ok with
        | true => cases hstep
        | false =>
          obtain rfl := Option.some.inj hstep
          exact h.nextItem hrest
    · cases hstep
  | remove k ok =>
    simp only [indexMachine] at hstep
    split at hstep
    · next p items n hk =>
      have hrest := h.round k
      rw [hk] at hrest
      cases ok with
      | true =>
        obtain rfl := Option.some.inj hstep
        have hlast : (p, n) ∈ (s.reapers k).replayed := by
          rw [hk]
          rfl
        exact (h.remove hk (hs (p, n) hlast)).nextItem hrest
      | false =>
        obtain rfl := Option.some.inj hstep
        exact h.nextItem hrest
    · cases hstep
  | late n =>
    simp only [indexMachine] at hstep
    split at hstep
    · next r hr =>
      obtain rfl := Option.some.inj hstep
      obtain ⟨hmem, ho⟩ := hs r hr
      exact (h.execute hmem ho).setUnanswered _
    · cases hstep

/-! ### Along a run -/

theorem absorbing_act : Absorbing EsRequest.act where
  idem r d := by
    cases r with
    | index id item => rfl
    | remove id => rfl
    | update id doc =>
      have hfield (x : Option Json.Value) (f : String) :
          (doc.lookup f).or ((doc.lookup f).or x) = (doc.lookup f).or x := by
        cases doc.lookup f <;> rfl
      cases d with
      | none => exact congrArg some (funext fun f ↦ by simp)
      | some d => exact congrArg some (funext fun f ↦ hfield (d f) f)
  absorb := EsRequest.act_absorb

/-- Where nothing is in flight and nothing in the outbox, everything has been executed. -/
theorem Converging.covers (h : Converging s) (hreq : ∀ n ∈ s.requests, n = none)
    (hout : s.outbox = []) (id : String) :
    Covers s.writes (·.id = id) (s.executed.filter (·.2.id = id)) where
  sorted := by
    refine List.Pairwise.imp_of_mem (fun {p q} hp hq hle ↦ ?_) (h.sorted.filter _)
    have hpid := of_decide_eq_true (List.mem_filter.1 hp).2
    have hqid := of_decide_eq_true (List.mem_filter.1 hq).2
    exact hle (hpid.trans hqid.symm)
  genuine p hp := ⟨h.genuine p (List.mem_filter.1 hp).1, (List.mem_filter.1 hp).2⟩
  covered i r hi hid := by
    obtain ⟨u, hu, rfl⟩ := Option.map_eq_some_iff.1 (List.getElem?_map ▸ hi)
    rcases h.placed hu with ⟨q, hq, hle, heq⟩ | ⟨n, hn⟩ | he
    · exact ⟨q, List.mem_filter.2 ⟨hq, heq ▸ hid⟩, hle, heq⟩
    · cases hreq _ (List.mem_of_getElem? hn)
    · obtain ⟨p, hp, -⟩ := h.held i he
      rw [hout] at hp
      cases hp

/-- The documents of a service, after a run. -/
theorem documents_of_reach (hr : (indexMachine S).Reach Sound .init s)
    (hreq : ∀ n ∈ s.requests, n = none) (hout : s.outbox = []) (id : String) :
    s.index id = s.documentOf id := by
  have h : Converging s := Labelled.invariant hr converging_init fun h hG hs ↦ h.step hG hs
  rw [h.shows, (h.covers hreq hout id).after_eq absorbing_act, documentOf]

end Converging

/-- **The index converges to the database**, for conversations and for users: when no request is in
flight and the outbox is empty, the documents are those that the updates leave, in the order of
their commits. -/
theorem documents_converge (lib : JsonLib) :
    (∀ s, (indexMachine (conversationIndex lib)).Reach Sound .init s →
      (∀ n ∈ s.requests, n = none) → s.outbox = [] → ∀ cid, s.index cid = s.documentOf cid) ∧
    (∀ s, (indexMachine (userIndex lib)).Reach Sound .init s →
      (∀ n ∈ s.requests, n = none) → s.outbox = [] → ∀ uid, s.index uid = s.documentOf uid) :=
  ⟨fun _ hr ↦ documents_of_reach hr, fun _ hr ↦ documents_of_reach hr⟩

/-- A conversation that nobody owns. -/
def ownerless : Conversation := { conversation_id := "p", conversation_name := "old" }

instance : DecidablePred (conversationIndex .plain).Replayable
  | .upsert c _ =>
    inferInstanceAs (Decidable (c.owner_id.getD "" = "" ∧
      total_seconds c.create_time = total_seconds c.update_time))
  | .delete _ => .isTrue trivial
  | .upd_members _ _ => .isTrue trivial

/-- The index is away when a conversation is made, and the document comes from the outbox; then the
members change, and then it is dismissed. -/
theorem documents_converge_after_outage :
    ∃ s, (indexMachine (conversationIndex .plain)).Reach Sound .init s ∧
      s.executed.map (·.1) = [0, 1, 2] ∧ s.index "p" = s.documentOf "p" := by
  obtain ⟨s, hr, hreq, hout, hexec⟩ := Labelled.exists_of_run
    (indexMachine (conversationIndex .plain)) Sound .init
    [.commit (.upsert ownerless ["a", "b"]), .attempt 0 false, .attempt 0 false, .attempt 0 false,
      .enqueue 0 true, .peek 0 [outbox_payload_upsert_ .plain ownerless ["a", "b"]],
      .replay 0 true, .remove 0 true, .commit (.upd_members "p" ["a"]), .attempt 1 true,
      .commit (.delete "p"), .attempt 2 false, .attempt 2 true]
    (fun s ↦ (∀ n ∈ s.requests, n = none) ∧ s.outbox = [] ∧ s.executed.map (·.1) = [0, 1, 2])
    (by decide +kernel)
  exact ⟨s, hr, hexec, (documents_converge .plain).1 s hr hreq hout "p"⟩

/-- A conversation is renamed while the index is away, and dismissed; then the outbox brings it
back. -/
theorem document_resurrected :
    ¬∀ s, (indexMachine (conversationIndex .plain)).Reach (fun _ _ ↦ True) .init s →
      (∀ n ∈ s.requests, n = none) → s.outbox = [] → ∀ cid, s.index cid = s.documentOf cid := by
  intro h
  obtain ⟨s, hr, hreq, hout, hthere, hgone⟩ :=
    Labelled.exists_of_run (indexMachine (conversationIndex .plain)) (fun _ _ ↦ True) .init
      [.commit (.upsert ownerless ["a", "b"]), .attempt 0 true,
        .commit (.upsert { ownerless with conversation_name := "new" } ["a", "b"]),
        .attempt 1 false, .attempt 1 false, .attempt 1 false, .enqueue 1 true,
        .commit (.delete "p"), .attempt 2 true,
        .peek 0 [outbox_payload_upsert_ .plain { ownerless with conversation_name := "new" }
          ["a", "b"]],
        .replay 0 true, .remove 0 true]
      (fun s ↦ (∀ n ∈ s.requests, n = none) ∧ s.outbox = [] ∧ (s.index "p").isSome = true ∧
        (s.documentOf "p").isSome = false)
      (by decide +kernel)
  rw [h s hr hreq hout "p", hgone] at hthere
  cases hthere

end ChatNow
