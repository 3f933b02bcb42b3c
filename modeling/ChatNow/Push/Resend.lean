import ChatNow.Lib.Rotation
import ChatNow.Push.Delivery
import ChatNow.Push.FrameIdentity

/-!
# Sending again

`_on_heartbeat_resend` of `push/source/push_server.h` over whole runs. A heartbeat takes up to
`_resend_batch` entries of a ledger that are due, sends them and puts off their next time.

`resend_fair`: nothing that is due is left out for long, however many entries there are and however
many heartbeats, pushes and acknowledgements interleave. What is sent is what `_local_send` is
called with; whether the device has a socket on that instance is not asked. Expiry is left out.
-/

namespace ChatNow

open Prog

/-! ### The scripts on a ledger whose keys agree -/

namespace UnackedPush

variable {S : Type} {L L' : Ledger S} {exp : String → Option String}
  {m q : String} {b c score : S} {n : ℤ}

/-- The loop returns everything, when everything has a payload. -/
theorem due_loop_of_all {seqs : List String} (h : ∀ m ∈ seqs, (hget L m).isSome = true) :
    (due_loop seqs L).1.map (·.1) = seqs := by
  induction seqs with
  | nil => rfl
  | cons seq seqs ih =>
    obtain ⟨payload, hp⟩ := Option.isSome_iff_exists.1 (h seq List.mem_cons_self)
    rw [due_loop_some hp, List.map_cons, ih fun m hm ↦ h m (List.mem_cons_of_mem _ hm)]

/-- The loop gives its score to those that are there, and changes no other. -/
theorem zscore_bump_loop (hL : Agrees L exp) (seqs : List String) (updated : ℤ) :
    zscore (bump_loop score seqs updated L).2 m =
      if m ∈ seqs ∧ (exp m).isSome = true then some score else zscore L m := by
  induction seqs generalizing L updated with
  | nil => exact (if_neg fun h ↦ List.not_mem_nil h.1).symm
  | cons seq seqs ih =>
    have hL' := bump_loop_agrees score [seq] updated hL
    rw [bump_loop] at hL' ⊢
    have hpayload := hL.payload seq
    have hmember := hL.member seq
    cases hp : hget L seq with
    | some payload =>
      rw [hp] at hL' hpayload
      rw [← hpayload] at hmember
      have hz : (zscore L seq).isSome = true := hmember.2 rfl
      simp only [hz, if_true] at hL' ⊢
      rw [ih (show Agrees (zadd L score seq) exp from hL'), zscore_zadd]
      rcases eq_or_ne m seq with rfl | hne
      · simp [← hpayload]
      · simp [hne]
    | none =>
      rw [hp] at hL' hpayload
      rw [← hpayload] at hmember
      have hz : zscore L seq = none := by simpa using hmember
      dsimp only at hL' ⊢
      rw [ih (show Agrees (zrem L seq) exp from hL'), zscore_zrem]
      rcases eq_or_ne m seq with rfl | hne
      · simp [← hpayload, hz]
      · simp [hne]

theorem zscore_push (expirable : ℤ → Bool) (hL : Agrees L exp) (score : S) (seq payload : String)
    (ttl : Option ℤ) (h : zscore (push expirable L (some score) seq payload ttl).2 m = some c) :
    m = seq ∧ c = score ∨ zscore L m = some c := by
  unfold push at h
  split at h
  · next score' ttl hscore =>
    obtain rfl := Option.some.inj hscore
    split at h
    · exact .inr h
    · rw [hL.typed.check_types] at h
      have hz : zscore (hset (zadd L score seq) seq payload) m = some c := by
        dsimp only at h
        split at h <;> exact h
      rw [zscore_hset, zscore_zadd] at hz
      split at hz
      · next heq => exact .inl ⟨heq, (Option.some.inj hz).symm⟩
      · exact .inr hz
  · exact .inr h

theorem zscore_ack (hL : Agrees L exp) (seq : String) :
    zscore (ack L seq).2 m = if m = seq then none else zscore L m := by
  rw [ack, hL.typed.check_types]
  exact zscore_zrem L seq m

/-- `bump_score` moves what it is given, or nothing; it says so when it moves. -/
theorem bump_score_cases (expirable : ℤ → Bool) (hL : Agrees L exp) (ttl : ℤ) (score : S)
    (seqs : List String) :
    (bump_score expirable L (some ttl) (some score) seqs).2 = (bump_loop score seqs 0 L).2 ∨
      (bump_score expirable L (some ttl) (some score) seqs).2 = L ∧
        ∃ e, (bump_score expirable L (some ttl) (some score) seqs).1 = .error e := by
  rw [bump_score]
  split
  · exact .inr ⟨rfl, _, rfl⟩
  · rw [hL.typed.check_types]
    dsimp only
    split <;> exact .inl rfl

/-! ### The order of a ledger -/

variable [LinearOrder S]

/-- Those that come before an entry. -/
def ahead (L : Ledger S) (q : String) : Finset String :=
  (zmembers L).keys.toFinset.filter fun m ↦
    (zscore L m).any fun a ↦ (zscore L q).any fun b ↦ a < b ∨ a = b ∧ m < q

theorem mem_ahead (hq : zscore L q = some b) :
    m ∈ ahead L q ↔ ∃ a, zscore L m = some a ∧ (a < b ∨ a = b ∧ m < q) := by
  rw [ahead, Finset.mem_filter, hq, List.mem_toFinset, ← AList.mem_keys, ← AList.lookup_isSome]
  cases hm : zscore L m with
  | none =>
    rw [zscore] at hm
    simp [hm]
  | some a =>
    rw [zscore] at hm
    simp [hm]

/-- What takes no score that comes before, has no more before it. -/
theorem ahead_subset (hq : zscore L q = some b) (hq' : zscore L' q = some b)
    (h : ∀ m a, zscore L' m = some a → zscore L m = some a ∨ b < a) : ahead L' q ⊆ ahead L q := by
  intro m hm
  obtain ⟨a, ha, hlt⟩ := (mem_ahead hq').1 hm
  refine (mem_ahead hq).2 ⟨a, (h m a ha).resolve_right fun hba ↦ ?_, hlt⟩
  rcases hlt with hlt | ⟨rfl, -⟩
  · exact lt_asymm hlt hba
  · exact lt_irrefl _ hba

/-- The order of `ZRANGEBYSCORE`. -/
def Precedes (a b : Σ _ : String, S) : Prop := a.2 < b.2 ∨ a.2 = b.2 ∧ a.1 ≤ b.1

theorem precedes_total (a b : Σ _ : String, S) : Precedes a b ∨ Precedes b a := by
  rcases lt_trichotomy a.2 b.2 with h | h | h
  · exact .inl (.inl h)
  · exact (le_total a.1 b.1).imp (fun hle ↦ .inr ⟨h, hle⟩) fun hle ↦ .inr ⟨h.symm, hle⟩
  · exact .inr (.inl h)

theorem precedes_trans {x y z : Σ _ : String, S} (h : Precedes x y) (h' : Precedes y z) :
    Precedes x z := by
  rcases h with h | ⟨h, hle⟩
  · rcases h' with h' | ⟨h', -⟩
    · exact .inl (h.trans h')
    · exact .inl (h' ▸ h)
  · rcases h' with h' | ⟨h', hle'⟩
    · exact .inl (h ▸ h')
    · exact .inr ⟨h.trans h', hle.trans hle'⟩

/-- The first of a sorted list. -/
theorem of_not_mem_take {α : Type} {r : α → α → Prop} {l : List α} {k : ℕ} {e : α}
    (hl : l.Pairwise r) (he : e ∈ l) (hnot : e ∉ l.take k) :
    (l.take k).length = k ∧ ∀ a ∈ l.take k, r a e := by
  rw [← List.take_append_drop k l, List.mem_append] at he
  have hdrop := he.resolve_left hnot
  rw [← List.take_append_drop k l, List.pairwise_append] at hl
  refine ⟨List.length_take_of_le (le_of_lt ?_), fun a ha ↦ hl.2.2 a ha e hdrop⟩
  have hpos := List.length_pos_of_mem hdrop
  rw [List.length_drop] at hpos
  omega

/-- **What is due is among the first, or the first are `n` that come before it.** -/
theorem zrangebyscore_ahead (hq : zscore L q = some b) (hb : b ≤ c)
    (hnot : q ∉ zrangebyscore L c n) :
    (zrangebyscore L c n).length = n.toNat ∧ ∀ m ∈ zrangebyscore L c n, m ∈ ahead L q := by
  have htotal : Std.Total fun x y : Σ _ : String, S ↦ x.2 < y.2 ∨ x.2 = y.2 ∧ x.1 ≤ y.1 :=
    ⟨precedes_total⟩
  have htrans : IsTrans (Σ _ : String, S) fun x y ↦ x.2 < y.2 ∨ x.2 = y.2 ∧ x.1 ≤ y.1 :=
    ⟨fun _ _ _ ↦ precedes_trans⟩
  rw [zrangebyscore, ← List.map_take] at hnot ⊢
  generalize hsorted : ((zmembers L).entries.filter fun e ↦ e.2 ≤ c).insertionSort
      (fun x y ↦ x.2 < y.2 ∨ x.2 = y.2 ∧ x.1 ≤ y.1) = l at hnot ⊢
  have hl : l.Pairwise Precedes := by
    rw [← hsorted]
    exact List.pairwise_insertionSort
      (fun x y : Σ _ : String, S ↦ x.2 < y.2 ∨ x.2 = y.2 ∧ x.1 ≤ y.1) _
  have hmem : ∀ e : Σ _ : String, S, e ∈ l ↔ zscore L e.1 = some e.2 ∧ e.2 ≤ c := by
    intro e
    rw [← hsorted, (List.perm_insertionSort _ _).mem_iff, List.mem_filter, decide_eq_true_iff]
    exact and_congr_left fun _ ↦ AList.mem_lookup_iff.symm
  have hnot' : (⟨q, b⟩ : Σ _ : String, S) ∉ l.take n.toNat :=
    fun h ↦ hnot (List.mem_map_of_mem h)
  obtain ⟨hlen, hpre⟩ := of_not_mem_take hl ((hmem ⟨q, b⟩).2 ⟨hq, hb⟩) hnot'
  refine ⟨by rw [List.length_map, hlen], fun m hm ↦ ?_⟩
  obtain ⟨e, he, rfl⟩ := List.mem_map.1 hm
  obtain ⟨hscore, -⟩ := (hmem e).1 (List.mem_of_mem_take he)
  refine (mem_ahead hq).2 ⟨e.2, hscore, ?_⟩
  rcases hpre e he with hlt | ⟨heq, hle⟩
  · exact .inl hlt
  · refine .inr ⟨heq, lt_of_le_of_ne hle fun hne ↦ hnot ?_⟩
    rw [← hne]
    exact hm

theorem nodup_zrangebyscore (L : Ledger S) (c : S) (n : ℤ) : (zrangebyscore L c n).Nodup := by
  refine List.Nodup.sublist (List.take_sublist _ _) ?_
  refine (((List.perm_insertionSort _ _).map _).nodup_iff).2 ?_
  exact List.Nodup.sublist (List.filter_sublist.map _) (zmembers L).nodupKeys

theorem peek_due_members {H : HScan} {pttl : ℤ} {raw : List (String × String)}
    (hL : Agrees L exp) (hok : (peek_due H pttl L (some c) (some n)).1 = .ok raw) :
    raw.map (·.1) = zrangebyscore L c n ∧ ∀ e ∈ raw, hget L e.1 = some e.2 := by
  rcases peek_due_cases H pttl L (some c) (some n) with ⟨⟨e, he⟩, -⟩ |
    ⟨L₀, c', n', next, fields, hsame, hc, hn, -, heq⟩
  · rw [he] at hok
    cases hok
  · obtain rfl := Option.some.inj hc
    obtain rfl := Option.some.inj hn
    rw [heq] at hok
    obtain rfl : (due_loop (zrangebyscore L₀ c n) L₀).1 = raw := Except.ok.inj hok
    have hrange : zrangebyscore L₀ c n = zrangebyscore L c n := by
      rw [zrangebyscore, zrangebyscore, zmembers, zmembers, hsame.1]
    refine ⟨?_, fun e he ↦ ?_⟩
    · rw [← hrange]
      refine due_loop_of_all fun m hm ↦ ?_
      obtain ⟨score, hscore, -⟩ := mem_zrangebyscore hm
      have hL₀ := hsame.agrees hL
      rw [hL₀.payload, ← hL₀.member, hscore]
      rfl
    · rw [← hsame.hget_eq]
      exact ((due_loop_result _ L₀).2 e he).2

/-- `peek_due` changes no score. -/
theorem zscore_peek_due (hL : Agrees L exp) (H : HScan) (pttl : ℤ) (cutoff : Option S)
    (limit : Option ℤ) : zscore (peek_due H pttl L cutoff limit).2 m = zscore L m := by
  have hL' := peek_due_agrees hL H pttl cutoff limit
  cases hm : zscore L m with
  | none =>
    have hnone : exp m = none := by simpa [hm] using hL.member m
    simpa [hnone] using hL'.member m
  | some a =>
    have hsome : (exp m).isSome = true := (hL.member m).1 (by rw [hm]; rfl)
    obtain ⟨payload, hp⟩ := Option.isSome_iff_exists.1 hsome
    exact ((peek_safe H pttl L cutoff limit).keeps m a payload hm ((hL.payload m).trans hp)).1

end UnackedPush

/-! ### The machine -/

/-- The ledger that something belongs to. -/
def Numbered.key (x : Numbered) : String × String := (x.uid, x.did)

/-- The ledgers, and what heartbeats have done. No key expires. -/
structure ResendState where
  /-- By user and device. -/
  ledgers : String × String → Ledger ℤ := fun _ ↦ {}
  /-- Which heartbeats have taken entries out of a ledger, and put them off, the last one first. -/
  marks : String × String → List Rotation.Mark := fun _ ↦ []
  /-- What heartbeats have sent, by user and device. -/
  resent : List ((String × String) × String) := []

/-- What the environment decides at a call. -/
structure ResendChoice where
  /-- The call fails. -/
  fault : Bool := false
  /-- Its effect takes place all the same. -/
  late : Bool := false
  /-- The time, and the time to live of a ledger. -/
  now : ℤ := 0
  ttl : ℤ := 300
  hscan : HScan := HScan.done
  pttl : ℤ := 300000
  cached : Option RouteEntry := none
  devices : Reply (AList fun _ : String ↦ String) := .ok ∅

namespace ResendState

/-- A ledger is written. -/
def set (s : ResendState) (key : String × String) (L : Ledger ℤ) : ResendState :=
  { s with ledgers := Function.update s.ledgers key L }

def mark (s : ResendState) (key : String × String) (m : Rotation.Mark) : ResendState :=
  { s with marks := Function.update s.marks key (m :: s.marks key) }

/-- Heartbeat `i` runs `kPeekDueLua`. -/
def peek (s : ResendState) (i : ℕ) (key : String × String) (limit age : ℤ) (c : ResendChoice) :
    Reply (List (String × String)) × ResendState :=
  let read := UnackedPush.peek_due c.hscan c.pttl (s.ledgers key) (some (c.now - age)) (some limit)
  let written := if c.fault && !c.late then s else s.set key read.2
  match c.fault, read.1 with
  | false, .ok raw => (.ok raw, written.mark key (.takes i))
  | _, _ => (.thrown, written)

/-- Heartbeat `i` runs `kBumpScoreLua`; an exception is only logged. -/
def bump (s : ResendState) (expirable : ℤ → Bool) (i : ℕ) (key : String × String)
    (user_seqs : List ℕ) (c : ResendChoice) : ResendState :=
  if c.fault && !c.late then s
  else
    let written := UnackedPush.bump_score expirable (s.ledgers key) (some c.ttl) (some c.now)
      (user_seqs.map toString)
    match written.1 with
    | .ok _ => (s.set key written.2).mark key (.returns i)
    | .error _ => s.set key written.2

variable {κ : Type} (expirable : ℤ → Bool)

/-- The effect of a call by heartbeat `i`. -/
def exec (i : ℕ) : (o : FrameOp κ) → ResendChoice → ResendState → Option (o.Res × ResendState)
  | .routeOp (.routeCacheGet _), c, s => some (c.cached, s)
  | .routeOp (.deviceInstancesMap _), c, s => some (if c.fault then .thrown else c.devices, s)
  | .routeOp (.routeCacheSet _ _), _, s => some ((), s)
  | .evalPeekDue uid did limit age, c, s => some (s.peek i (uid, did) limit age c)
  | .evalBumpScore uid did user_seqs, c, s => some ((), s.bump expirable i (uid, did) user_seqs c)
  | .localSend uid did payload, _, s =>
    some ((), { s with resent := ((uid, did), payload) :: s.resent })
  | _, _, _ => none

end ResendState

/-- What can happen beside the calls. -/
inductive ResendEv
  /-- A heartbeat comes in. -/
  | arrive (hb : NotifyHeartbeat)
  /-- `kPushLua`. -/
  | push (y : Numbered) (payload : String) (now : ℤ) (ttl : Option ℤ)
  /-- A client acknowledges. -/
  | ack (y : Numbered)
  /-- A thread is gone. -/
  | crash (i : ℕ)

abbrev ResendPool (κ : Type) := Pool (FrameOp κ) FrameOp.Res ResendState

section Machine

variable (κ : Type) (cfg : FrameConfig) (expirable : ℤ → Bool)

/-- A heartbeat; an exception is only logged. -/
def heartbeat (hb : NotifyHeartbeat) : FrameM κ Unit := do
  let _ ← Frames._on_heartbeat_resend cfg hb
  return ()

variable {κ} in
/-- The effect of an event. -/
def ResendState.env : ResendEv → ResendPool κ → Option (ResendPool κ)
  | .arrive hb, p => some ⟨p.threads ++ [heartbeat κ cfg hb], p.shared⟩
  | .push y payload now ttl, p => some ⟨p.threads, p.shared.set y.key
      (UnackedPush.push expirable (p.shared.ledgers y.key) (some now) y.member payload ttl).2⟩
  | .ack y, p => some ⟨p.threads, p.shared.set y.key
      (UnackedPush.ack (p.shared.ledgers y.key) y.member).2⟩
  | .crash i, p => some ⟨p.threads.set i (.ret ()), p.shared⟩

/-- Heartbeats on any number of instances. -/
def resending : Machine (FrameOp κ) FrameOp.Res ResendState ResendChoice ResendEv :=
  ⟨ResendState.exec expirable, ResendState.env cfg expirable⟩

abbrev ResendGuard := Machine.Guard (FrameOp κ) FrameOp.Res ResendState ResendChoice ResendEv

/-- The entry is neither acknowledged nor pushed again, and its time has come: scripts find it due,
and what they write in its ledger is for later. -/
def leavesDue (x : Numbered) (score : ℤ) : ResendGuard κ where
  onOp _ o c _ :=
    match o with
    | .evalPeekDue uid did _ age => (uid, did) = x.key → score ≤ c.now - age
    | .evalBumpScore uid did _ => (uid, did) = x.key → score < c.now
    | _ => True
  onEv e _ :=
    match e with
    | .push y _ now _ => y.key = x.key → y ≠ x ∧ score < now
    | .ack y => y ≠ x
    | _ => True

instance (x : Numbered) (score : ℤ) (i : ℕ) (o : FrameOp κ) (c : ResendChoice) (s : ResendState) :
    Decidable ((leavesDue κ x score).onOp i o c s) :=
  match o with
  | .evalPeekDue uid did _ age =>
    inferInstanceAs (Decidable ((uid, did) = x.key → score ≤ c.now - age))
  | .evalBumpScore uid did _ => inferInstanceAs (Decidable ((uid, did) = x.key → score < c.now))
  | .routeOp _ | .client _ | .touchConn _ | .insertConn _ _ _ _ | .close _ _ | .verify _
  | .evalAck _ _ _ | .localSend _ _ _ | .updateReadAck _ _ _ | .bindRoute _ _ _ | .touchRoute _
  | .writePresence _ _ _ | .expirePresence _ _ | .presenceSubs _ | .presenceBatch _ _ _ _ =>
    .isTrue trivial

instance (x : Numbered) (score : ℤ) (e : ResendEv) (p : ResendPool κ) :
    Decidable ((leavesDue κ x score).onEv e p) :=
  match e with
  | .push y _ now _ => inferInstanceAs (Decidable (y.key = x.key → y ≠ x ∧ score < now))
  | .ack y => inferInstanceAs (Decidable (y ≠ x))
  | .arrive _ | .crash _ => .isTrue trivial

end Machine

/-! ### The contract -/

/-- What a heartbeat has taken out of a ledger and not put off yet, and what it has sent since. -/
structure ResendThread where
  batch : Option ((String × String) × List (String × String)) := none
  sent : List ((String × String) × String) := []

/-- Everything in a batch has been sent, but what cannot be decoded. -/
def SentAll (cfg : FrameConfig) (key : String × String) (pending : List (ℕ × String))
    (sent : List ((String × String) × String)) : Prop :=
  ∀ e ∈ pending, cfg.base64_decode e.2 ≠ "" → (key, cfg.base64_decode e.2) ∈ sent

/-- A heartbeat puts off what it has taken, once it has sent all of it. -/
def resendContract (κ : Type) (cfg : FrameConfig) :
    Contract (FrameOp κ) FrameOp.Res ResendThread where
  allowed t o :=
    match o with
    | .evalPeekDue _ _ limit _ => limit = cfg.resend_batch
    | .evalBumpScore uid did user_seqs => ∃ raw, t.batch = some ((uid, did), raw) ∧
        user_seqs = (Frames.read_pairs raw).map (·.1) ∧
          SentAll cfg (uid, did) (Frames.read_pairs raw) t.sent
    | _ => True
  admits _ _ _ := True
  next t o r :=
    match o, r with
    | .evalPeekDue uid did _ _, .ok raw => ⟨some ((uid, did), raw), []⟩
    | .evalBumpScore _ _ _, _ => {}
    | .localSend uid did payload, _ => { t with sent := ((uid, did), payload) :: t.sent }
    | _, _ => t

namespace Frames

variable {κ : Type} {cfg : FrameConfig} {t : ResendThread} {uid did : String}

theorem resolve_route_resends : (resolve_route cfg uid : FrameM κ _).Meets (resendContract κ cfg) t
    fun t' _ ↦ t' = t := by
  have hignores : ((resendContract κ cfg).comap FrameOp.routeOp).Ignores Looks :=
    ⟨fun _ _ _ ↦ trivial, fun _ _ _ _ ↦ rfl⟩
  exact Meets.lift (f := FrameOp.routeOp) (resolve_route_looks hignores)

theorem peek_due_resends : (peek_due cfg uid did : FrameM κ _).Meets (resendContract κ cfg) t
    fun t' pending ↦ pending ≠ [] →
      ∃ raw, t' = ⟨some ((uid, did), raw), []⟩ ∧ pending = read_pairs raw := by
  rw [peek_due]
  split
  · exact fun hne ↦ absurd rfl hne
  · refine meets_op_bind.2 ⟨rfl, fun r _ ↦ ?_⟩
    cases r with
    | ok raw => exact fun _ ↦ ⟨raw, rfl, rfl⟩
    | thrown => exact fun hne ↦ absurd rfl hne

theorem send_pending_resends (pending : List (ℕ × String)) :
    (send_pending cfg uid did pending : FrameM κ _).Meets (resendContract κ cfg) t fun t' _ ↦
      t'.batch = t.batch ∧ t.sent ⊆ t'.sent ∧ SentAll cfg (uid, did) pending t'.sent := by
  induction pending generalizing t with
  | nil => exact ⟨rfl, fun _ h ↦ h, fun _ he ↦ by cases he⟩
  | cons e pending ih =>
    rw [send_pending]
    dsimp only
    split
    · refine meets_op_bind.2 ⟨trivial, fun r _ ↦ ih.mono fun t' _ h ↦ ?_⟩
      obtain ⟨hbatch, hsub, hall⟩ := h
      refine ⟨hbatch, fun x hx ↦ hsub (List.mem_cons_of_mem _ hx), fun e' he' hne ↦ ?_⟩
      rcases List.mem_cons.1 he' with rfl | he'
      · exact hsub List.mem_cons_self
      · exact hall e' he' hne
    · next hempty =>
      refine ih.mono fun t' _ h ↦ ?_
      obtain ⟨hbatch, hsub, hall⟩ := h
      refine ⟨hbatch, hsub, fun e' he' hne ↦ ?_⟩
      rcases List.mem_cons.1 he' with rfl | he'
      · exact absurd hne hempty
      · exact hall e' he' hne

theorem resend_loop_resends (dids : List String) :
    (resend_loop cfg uid dids : FrameM κ _).Meets (resendContract κ cfg) t fun _ _ ↦ True := by
  induction dids generalizing t with
  | nil => trivial
  | cons did dids ih =>
    refine peek_due_resends.bind fun t' pending hp ↦ ?_
    dsimp only
    split
    · next hne =>
      obtain ⟨raw, rfl, rfl⟩ := hp (by simpa using hne)
      refine (send_pending_resends _).bind fun t'' _ h ↦ ?_
      obtain ⟨hbatch, -, hall⟩ := h
      exact meets_op_bind.2 ⟨⟨raw, hbatch, rfl, hall⟩, fun _ _ ↦ ih⟩
    · exact ih

/-- **Every heartbeat meets the contract.** -/
theorem heartbeat_meets (hb : NotifyHeartbeat) :
    (heartbeat κ cfg hb).Meets (resendContract κ cfg) t fun _ _ ↦ True := by
  refine Meets.bind (Q := fun _ _ ↦ True) ?_ fun _ _ _ ↦ trivial
  rw [_on_heartbeat_resend]
  split
  · trivial
  · dsimp only
    split
    · trivial
    · refine resolve_route_resends.bind fun t' route _ ↦ ?_
      cases route with
      | thrown => trivial
      | ok route => exact (resend_loop_resends _).bind fun _ _ _ ↦ trivial

end Frames

/-! ### The ledger of an entry that waits -/

open UnackedPush

variable {x y : Numbered} {score now : ℤ} {payload : String} {L L' : Ledger ℤ}

/-- The entry is in the ledger, and all entries of it are numbers. -/
structure Holding (x : Numbered) (score : ℤ) (payload : String) (L : Ledger ℤ) : Prop where
  agrees : Agrees L (hget L)
  numbers : ∀ m, (hget L m).isSome = true → ∃ n : UInt64, m = toString n.toNat
  score : zscore L x.member = some score
  payload : hget L x.member = some payload

/-- The entry is still there, and nothing has come in ahead of it. -/
structure Keeps (x : Numbered) (score : ℤ) (payload : String) (L L' : Ledger ℤ) : Prop where
  holding : Holding x score payload L'
  ahead : ahead L' x.member ⊆ ahead L x.member

/-- A script keeps an entry that it leaves alone, when the scores that it writes are for later. -/
theorem Holding.keeps (h : Holding x score payload L) {exp : String → Option String}
    (hagrees : Agrees L' exp) (hexp : ∀ m, (exp m).isSome = true →
      (hget L m).isSome = true ∨ ∃ n : UInt64, m = toString n.toNat)
    (hscore : ∀ m a, zscore L' m = some a → zscore L m = some a ∨ score < a)
    (hx : zscore L' x.member = some score) (hpayload : exp x.member = some payload) :
    Keeps x score payload L L' where
  holding := by
    refine ⟨agrees_self hagrees, fun m hm ↦ ?_, hx, (hagrees.payload _).trans hpayload⟩
    rw [hagrees.payload] at hm
    exact (hexp m hm).elim (h.numbers m) id
  ahead := ahead_subset h.score hx hscore

theorem Numbered.member_inj (hkey : y.key = x.key) (h : y.member = x.member) : y = x := by
  obtain ⟨huid, hdid⟩ := Prod.mk.inj hkey
  have hseq : y.user_seq = x.user_seq := UInt64.toNat_inj.1 (toString_inj.1 h)
  cases y
  cases x
  cases huid
  cases hdid
  cases hseq
  rfl

/-- Something else is pushed. -/
theorem Holding.push (h : Holding x score payload L) (expirable : ℤ → Bool) (hkey : y.key = x.key)
    (hne : y ≠ x) (hlater : score < now) (payload' : String) (ttl : Option ℤ) :
    Keeps x score payload L (UnackedPush.push expirable L (some now) y.member payload' ttl).2 := by
  have hmember : x.member ≠ y.member := fun heq ↦ hne (Numbered.member_inj hkey heq.symm)
  have hpush : Agrees (UnackedPush.push expirable L (some now) y.member payload' ttl).2 _ :=
    push_agrees h.agrees ..
  have hsome := (hpush.member x.member).2
  rw [if_neg fun heq ↦ hmember heq.1, h.payload] at hsome
  obtain ⟨a, ha⟩ := Option.isSome_iff_exists.1 (hsome rfl)
  refine h.keeps hpush (fun m hm ↦ ?_) (fun m a hm ↦ ?_) ?_ ?_
  · split at hm
    · next heq => exact .inr ⟨y.user_seq, heq.1⟩
    · exact .inl hm
  · rcases zscore_push expirable h.agrees now y.member payload' ttl hm with ⟨-, rfl⟩ | hm
    · exact .inr hlater
    · exact .inl hm
  · rcases zscore_push expirable h.agrees now y.member payload' ttl ha with ⟨heq, -⟩ | ha'
    · exact absurd heq hmember
    · rw [ha, ← ha', h.score]
  · rw [if_neg fun heq ↦ hmember heq.1, h.payload]

/-- Something else is acknowledged. -/
theorem Holding.ack (h : Holding x score payload L) (hkey : y.key = x.key) (hne : y ≠ x) :
    Keeps x score payload L (UnackedPush.ack L y.member).2 := by
  have hmember : x.member ≠ y.member := fun heq ↦ hne (Numbered.member_inj hkey heq.symm)
  refine h.keeps (ack_agrees h.agrees y.member) (fun m hm ↦ ?_) (fun m a hm ↦ ?_) ?_ ?_
  · split at hm
    · cases hm
    · exact .inl hm
  · rw [zscore_ack h.agrees] at hm
    split at hm
    · cases hm
    · exact .inl hm
  · rw [zscore_ack h.agrees, if_neg hmember, h.score]
  · rw [if_neg hmember, h.payload]

theorem Holding.peek (h : Holding x score payload L) (H : HScan) (pttl : ℤ)
    (cutoff limit : Option ℤ) :
    Keeps x score payload L (peek_due H pttl L cutoff limit).2 := by
  refine h.keeps (peek_due_agrees h.agrees H pttl cutoff limit) (fun m hm ↦ .inl hm)
    (fun m a hm ↦ ?_) ?_ h.payload
  · rw [zscore_peek_due h.agrees] at hm
    exact .inl hm
  · rw [zscore_peek_due h.agrees, h.score]

/-- Others are put off. -/
theorem Holding.bump_loop (h : Holding x score payload L) {seqs : List String}
    (hnot : x.member ∉ seqs) (hlater : score < now) :
    Keeps x score payload L (UnackedPush.bump_loop now seqs 0 L).2 := by
  refine h.keeps (bump_loop_agrees now seqs 0 h.agrees) (fun m hm ↦ .inl hm) (fun m a hm ↦ ?_) ?_
    h.payload
  · rw [zscore_bump_loop h.agrees] at hm
    split at hm
    · exact .inr (Option.some.inj hm ▸ hlater)
    · exact .inl hm
  · rw [zscore_bump_loop h.agrees, if_neg fun hmem ↦ hnot hmem.1, h.score]

/-- And none of them is ahead any more. -/
theorem Holding.disjoint_bump (h : Holding x score payload L) {seqs : List String}
    (hnot : x.member ∉ seqs) (hlater : score < now) :
    Disjoint (UnackedPush.ahead (UnackedPush.bump_loop now seqs 0 L).2 x.member)
      seqs.toFinset := by
  have hkeeps := h.bump_loop hnot hlater
  refine Finset.disjoint_left.2 fun m hm hseqs ↦ ?_
  obtain ⟨a, ha, hlt⟩ := (mem_ahead hkeeps.holding.score).1 hm
  have hsome : (hget L m).isSome = true :=
    ((bump_loop_agrees now seqs 0 h.agrees).member m).1 (by rw [ha]; rfl)
  rw [zscore_bump_loop h.agrees, if_pos ⟨List.mem_toFinset.1 hseqs, hsome⟩] at ha
  obtain rfl := Option.some.inj ha
  omega

/-- The entries of a batch that a heartbeat has taken: the one that waits is among them, or as many
are as a batch has room for. -/
structure Full (limit : ℤ) (x : Numbered) (payload : String) (raw : List (String × String)) :
    Prop where
  numbers : ∀ e ∈ raw, ∃ n : UInt64, e.1 = toString n.toNat
  nodup : (raw.map (·.1)).Nodup
  full : x.member ∈ raw.map (·.1) → (x.member, payload) ∈ raw
  length : x.member ∉ raw.map (·.1) → raw.length = limit.toNat

/-- What a heartbeat takes while the entry is due. -/
theorem Holding.taken (h : Holding x score payload L) {H : HScan} {pttl cutoff limit : ℤ}
    {raw : List (String × String)} (hdue : score ≤ cutoff)
    (hok : (peek_due H pttl L (some cutoff) (some limit)).1 = .ok raw) :
    Full limit x payload raw ∧ (x.member ∉ raw.map (·.1) →
      (raw.map (·.1)).toFinset ⊆ UnackedPush.ahead L x.member) := by
  obtain ⟨hmembers, hpayload⟩ := peek_due_members h.agrees hok
  have hsome : ∀ e ∈ raw, (hget L e.1).isSome = true := fun e he ↦ by rw [hpayload e he]; rfl
  refine ⟨⟨fun e he ↦ h.numbers e.1 (hsome e he), ?_, fun hmem ↦ ?_, fun hnot ↦ ?_⟩,
    fun hnot m hm ↦ ?_⟩
  · rw [hmembers]
    exact nodup_zrangebyscore L cutoff limit
  · obtain ⟨e, he, heq⟩ := List.mem_map.1 hmem
    have hp := hpayload e he
    rw [heq, h.payload] at hp
    rwa [← heq, Option.some.inj hp]
  · rw [hmembers] at hnot
    rw [← List.length_map (·.1), hmembers, (zrangebyscore_ahead h.score hdue hnot).1]
  · rw [hmembers] at hnot
    rw [List.mem_toFinset, hmembers] at hm
    exact (zrangebyscore_ahead h.score hdue hnot).2 m hm

/-- The numbers of a batch are those of the script. -/
theorem read_pairs_eq {raw : List (String × String)}
    (h : ∀ e ∈ raw, ∃ n : UInt64, e.1 = toString n.toNat) :
    (Frames.read_pairs raw).map (fun e ↦ (toString e.1, e.2)) = raw := by
  induction raw with
  | nil => rfl
  | cons e raw ih =>
    obtain ⟨n, hn⟩ := h e List.mem_cons_self
    obtain ⟨seq, payload⟩ := e
    obtain rfl : seq = toString n.toNat := hn
    rw [Frames.read_pairs, stoull_text_toString n.toNat_lt]
    exact congrArg _ (ih fun e he ↦ h e (List.mem_cons_of_mem _ he))

/-! ### The invariant -/

/-- Heartbeat `i` has taken a batch without the entry that waits, and has not put it off yet. -/
def HoldsBatch (x : Numbered) (ts : List ResendThread) (i : ℕ) (C : Finset String) : Prop :=
  ∃ t raw, ts[i]? = some t ∧ t.batch = some (x.key, raw) ∧ x.member ∉ raw.map (·.1) ∧
    C = (raw.map (·.1)).toFinset

/-- While the entry has not been sent again: it waits in the ledger, and the rounds of heartbeats
bring it nearer. -/
structure ResendInv (cfg : FrameConfig) (x : Numbered) (score : ℤ) (payload : String) (N : ℕ)
    (ts : List ResendThread) (s : ResendState) : Prop where
  holding : Holding x score payload (s.ledgers x.key)
  sent : ∀ t ∈ ts, t.sent ⊆ s.resent
  batch : ∀ t ∈ ts, ∀ raw, t.batch = some (x.key, raw) → Full cfg.resend_batch x payload raw
  fair : Rotation.Fair cfg.resend_batch.toNat N (s.marks x.key)
    (UnackedPush.ahead (s.ledgers x.key) x.member) (HoldsBatch x ts)

section Invariant

variable {κ : Type} {cfg : FrameConfig} {expirable : ℤ → Bool} {N i : ℕ} {ts : List ResendThread}
  {t u : ResendThread} {s s' : ResendState} {key : String × String}

theorem ledgers_set_self : (s.set key L).ledgers key = L := Function.update_self ..

theorem ledgers_set_other (h : x.key ≠ key) : (s.set key L).ledgers x.key = s.ledgers x.key :=
  Function.update_of_ne h ..

theorem marks_mark_self {m : Rotation.Mark} : (s.mark key m).marks key = m :: s.marks key :=
  Function.update_self ..

theorem marks_mark_other {m : Rotation.Mark} (h : x.key ≠ key) :
    (s.mark key m).marks x.key = s.marks x.key := Function.update_of_ne h ..

/-- A heartbeat that holds nothing new. -/
theorem holdsBatch_set (hi : ts[i]? = some t)
    (hbatch : ∀ raw, u.batch = some (x.key, raw) → t.batch = some (x.key, raw)) {j : ℕ}
    {C : Finset String} (h : HoldsBatch x (ts.set i u) j C) : HoldsBatch x ts j C := by
  obtain ⟨t', raw, hj, hraw, hC⟩ := h
  rcases Pool.getElem?_set_cases hj with ⟨rfl, rfl⟩ | ⟨-, hj⟩
  · exact ⟨t, raw, hi, hbatch raw hraw, hC⟩
  · exact ⟨t', raw, hj, hraw, hC⟩

namespace ResendInv

/-- A script keeps the entry, and no mark is made. -/
theorem writes (h : ResendInv cfg x score payload N ts s)
    (hledger : Keeps x score payload (s.ledgers x.key) (s'.ledgers x.key))
    (hmarks : s'.marks x.key = s.marks x.key) (hresent : s'.resent = s.resent) :
    ResendInv cfg x score payload N ts s' where
  holding := hledger.holding
  sent t ht := hresent ▸ h.sent t ht
  batch := h.batch
  fair := hmarks ▸ h.fair.shrinks hledger.ahead fun _ _ hC ↦ hC

/-- A heartbeat moves on. -/
theorem moves (h : ResendInv cfg x score payload N ts s) (hi : ts[i]? = some t)
    (hbatch : ∀ raw, u.batch = some (x.key, raw) → t.batch = some (x.key, raw))
    (hsent : u.sent ⊆ s.resent) : ResendInv cfg x score payload N (ts.set i u) s where
  holding := h.holding
  sent t' ht' := by
    rcases List.mem_or_eq_of_mem_set ht' with ht' | rfl
    · exact h.sent t' ht'
    · exact hsent
  batch t' ht' raw hraw := by
    rcases List.mem_or_eq_of_mem_set ht' with ht' | rfl
    · exact h.batch t' ht' raw hraw
    · exact h.batch t (List.mem_of_getElem? hi) raw (hbatch raw hraw)
  fair := h.fair.shrinks (Finset.Subset.refl _) fun _ _ ↦ holdsBatch_set hi hbatch

theorem stays (h : ResendInv cfg x score payload N ts s) (hi : ts[i]? = some t) :
    ResendInv cfg x score payload N (ts.set i t) s :=
  h.moves hi (fun _ hraw ↦ hraw) (h.sent t (List.mem_of_getElem? hi))

/-- What is not of the ledger of the entry. -/
theorem elsewhere (h : ResendInv cfg x score payload N ts s)
    (hledger : s'.ledgers x.key = s.ledgers x.key) (hmarks : s'.marks x.key = s.marks x.key)
    (hresent : s'.resent = s.resent) : ResendInv cfg x score payload N ts s' := by
  refine h.writes ?_ hmarks hresent
  rw [hledger]
  exact ⟨h.holding, Finset.Subset.refl _⟩

/-- The entry is still kept when a ledger is written. -/
theorem set (h : ResendInv cfg x score payload N ts s)
    (hkeeps : key = x.key → Keeps x score payload (s.ledgers key) L) :
    ResendInv cfg x score payload N ts (s.set key L) := by
  rcases eq_or_ne x.key key with rfl | hne
  · refine h.writes ?_ rfl rfl
    rw [ledgers_set_self]
    exact hkeeps rfl
  · exact h.elsewhere (ledgers_set_other hne) rfl rfl

/-- A heartbeat sends. -/
theorem sends (h : ResendInv cfg x score payload N ts s) (hi : ts[i]? = some t)
    (e : (String × String) × String) :
    ResendInv cfg x score payload N (ts.set i { t with sent := e :: t.sent })
      { s with resent := e :: s.resent } := by
  have h' : ResendInv cfg x score payload N ts { s with resent := e :: s.resent } :=
    { h with sent := fun t' ht' _ hy ↦ List.mem_cons_of_mem _ (h.sent t' ht' hy) }
  exact h'.moves hi (fun _ hraw ↦ hraw)
    (List.cons_subset_cons e (h.sent t (List.mem_of_getElem? hi)))

/-- A heartbeat takes a batch. -/
theorem takes (h : ResendInv cfg x score payload N ts s) (hi : ts[i]? = some t) {H : HScan}
    {pttl cutoff : ℤ} {raw : List (String × String)} (hdue : key = x.key → score ≤ cutoff)
    (hok : (peek_due H pttl (s.ledgers key) (some cutoff) (some cfg.resend_batch)).1 = .ok raw) :
    ResendInv cfg x score payload N (ts.set i ⟨some (key, raw), []⟩)
      (s.mark key (.takes i)) := by
  rcases eq_or_ne x.key key with rfl | hne
  · obtain ⟨hfull, hahead⟩ := h.holding.taken (hdue rfl) hok
    refine ⟨h.holding, fun t' ht' ↦ ?_, fun t' ht' raw' hraw' ↦ ?_, ?_⟩
    · rcases List.mem_or_eq_of_mem_set ht' with ht' | rfl
      · exact h.sent t' ht'
      · exact List.nil_subset _
    · rcases List.mem_or_eq_of_mem_set ht' with ht' | rfl
      · exact h.batch t' ht' raw' hraw'
      · obtain rfl := (Prod.mk.inj (Option.some.inj hraw')).2
        exact hfull
    · rw [marks_mark_self]
      refine h.fair.takes fun j C hC ↦ ?_
      obtain ⟨t', raw', hj, hraw', hnot, rfl⟩ := hC
      rcases Pool.getElem?_set_cases hj with ⟨rfl, rfl⟩ | ⟨hji, hj⟩
      · obtain rfl := (Prod.mk.inj (Option.some.inj hraw')).2
        exact .inl (hahead hnot)
      · exact .inr ⟨hji, t', raw', hj, hraw', hnot, rfl⟩
  · have h' : ResendInv cfg x score payload N ts (s.mark key (.takes i)) :=
      h.elsewhere rfl (marks_mark_other hne) rfl
    refine h'.moves hi (fun raw' hraw' ↦ ?_) (List.nil_subset _)
    exact absurd (Prod.mk.inj (Option.some.inj hraw')).1.symm hne

/-- A heartbeat puts off the batch that it has taken: others, or it has sent the entry. -/
theorem returns (h : ResendInv cfg x score payload N ts s) (hi : ts[i]? = some t)
    {raw : List (String × String)} (hraw : t.batch = some (x.key, raw))
    (hnot : x.member ∉ raw.map (·.1)) (hlater : score < now) :
    ResendInv cfg x score payload N (ts.set i {}) ((s.set x.key
      (bump_loop now (raw.map (·.1)) 0 (s.ledgers x.key)).2).mark x.key (.returns i)) := by
  have hkeeps := h.holding.bump_loop hnot hlater
  have hfull := h.batch t (List.mem_of_getElem? hi) raw hraw
  have hset := (h.set fun _ ↦ hkeeps).moves (u := {}) hi (fun _ hraw' ↦ by cases hraw')
    (List.nil_subset _)
  refine ⟨hset.holding, hset.sent, hset.batch, ?_⟩
  rw [marks_mark_self]
  refine h.fair.returns ⟨t, raw, hi, hraw, hnot, rfl⟩ ?_ ?_ ?_ ?_
  · rw [List.toFinset_card_of_nodup hfull.nodup, List.length_map, hfull.length hnot]
  · show UnackedPush.ahead ((s.set x.key _).ledgers x.key) _ ⊆ _
    rw [ledgers_set_self]
    exact hkeeps.ahead
  · show Disjoint (UnackedPush.ahead ((s.set x.key _).ledgers x.key) _) _
    rw [ledgers_set_self]
    exact h.holding.disjoint_bump hnot hlater
  · exact fun j C ↦ holdsBatch_set hi fun _ hraw' ↦ by cases hraw'

end ResendInv

/-- What a look at a ledger does. -/
theorem peek_cases {limit age : ℤ} {c : ResendChoice} {r : Reply (List (String × String))}
    (hx : s.peek i key limit age c = (r, s')) :
    (∃ raw, r = .ok raw ∧ (peek_due c.hscan c.pttl (s.ledgers key) (some (c.now - age))
        (some limit)).1 = .ok raw ∧ s' = (s.mark key (.takes i)).set key (peek_due c.hscan c.pttl
          (s.ledgers key) (some (c.now - age)) (some limit)).2) ∨
      r = .thrown ∧ (s' = s ∨ s' = s.set key (peek_due c.hscan c.pttl (s.ledgers key)
        (some (c.now - age)) (some limit)).2) := by
  rw [ResendState.peek] at hx
  cases hfault : c.fault with
  | true =>
    rw [hfault] at hx
    obtain ⟨rfl, rfl⟩ := Prod.mk.inj hx
    refine .inr ⟨rfl, ?_⟩
    split
    · exact .inl rfl
    · exact .inr rfl
  | false =>
    rw [hfault] at hx
    split at hx
    · next raw _ hok =>
      obtain ⟨rfl, rfl⟩ := Prod.mk.inj hx
      exact .inl ⟨raw, rfl, hok, rfl⟩
    · obtain ⟨rfl, rfl⟩ := Prod.mk.inj hx
      exact .inr ⟨rfl, .inr rfl⟩

/-- What putting off does. -/
theorem bump_cases {exp : String → Option String} (hL : Agrees (s.ledgers key) exp)
    (expirable : ℤ → Bool) (i : ℕ) (user_seqs : List ℕ) (c : ResendChoice) :
    s.bump expirable i key user_seqs c = s ∨
      ∃ s₁, s₁ = s.set key (bump_loop c.now (user_seqs.map toString) 0 (s.ledgers key)).2 ∧
        (s.bump expirable i key user_seqs c = s₁ ∨
          s.bump expirable i key user_seqs c = s₁.mark key (.returns i)) := by
  have hsame : s.set key (s.ledgers key) = s := by
    rw [ResendState.set, Function.update_eq_self]
  rw [ResendState.bump]
  split
  · exact .inl rfl
  · have hcases := bump_score_cases expirable hL c.ttl c.now (user_seqs.map toString)
    rcases hcases with heq | ⟨heq, e, he⟩
    · refine .inr ⟨_, rfl, ?_⟩
      dsimp only
      rw [heq]
      split
      · exact .inr rfl
      · exact .inl rfl
    · refine .inl ?_
      dsimp only
      rw [he, heq]
      exact hsame

theorem bump_resent (s : ResendState) (expirable : ℤ → Bool) (i : ℕ) (key : String × String)
    (user_seqs : List ℕ) (c : ResendChoice) :
    (s.bump expirable i key user_seqs c).resent = s.resent := by
  rw [ResendState.bump]
  split
  · rfl
  · dsimp only
    split <;> rfl

/-- The other ledgers are left alone. -/
theorem bump_other (hne : x.key ≠ key) (s : ResendState) (expirable : ℤ → Bool) (i : ℕ)
    (user_seqs : List ℕ) (c : ResendChoice) :
    (s.bump expirable i key user_seqs c).ledgers x.key = s.ledgers x.key ∧
      (s.bump expirable i key user_seqs c).marks x.key = s.marks x.key := by
  rw [ResendState.bump]
  split
  · exact ⟨rfl, rfl⟩
  · dsimp only
    split
    · exact ⟨ledgers_set_other hne, marks_mark_other hne⟩
    · exact ⟨ledgers_set_other hne, rfl⟩

/-- The entry has been sent, or it waits and the rounds bring it nearer. -/
def SentOrWaits (cfg : FrameConfig) (x : Numbered) (score : ℤ) (payload : String) (N : ℕ)
    (ts : List ResendThread) (s : ResendState) : Prop :=
  (x.key, cfg.base64_decode payload) ∈ s.resent ∨ ResendInv cfg x score payload N ts s

/-- A batch with the entry, all of which has been sent. -/
theorem sent_of_sentAll {raw : List (String × String)} {limit : ℤ}
    {sent : List ((String × String) × String)} (hdecode : cfg.base64_decode payload ≠ "")
    (hfull : Full limit x payload raw)
    (hall : SentAll cfg x.key (Frames.read_pairs raw) sent) (hmem : x.member ∈ raw.map (·.1)) :
    (x.key, cfg.base64_decode payload) ∈ sent := by
  have hpair := hfull.full hmem
  rw [← read_pairs_eq hfull.numbers] at hpair
  obtain ⟨e, he, heq⟩ := List.mem_map.1 hpair
  obtain rfl : e.2 = payload := (Prod.mk.inj heq).2
  exact hall e he hdecode

/-- A heartbeat puts off what it has taken. -/
theorem ResendInv.bumps (h : ResendInv cfg x score payload N ts s) (hi : ts[i]? = some t)
    (hdecode : cfg.base64_decode payload ≠ "") {raw : List (String × String)} {c : ResendChoice}
    (hraw : t.batch = some (key, raw)) (hall : SentAll cfg key (Frames.read_pairs raw) t.sent)
    (hlater : key = x.key → score < c.now) :
    SentOrWaits cfg x score payload N (ts.set i {})
      (s.bump expirable i key ((Frames.read_pairs raw).map (·.1)) c) := by
  rcases eq_or_ne x.key key with rfl | hne
  · have hfull := h.batch t (List.mem_of_getElem? hi) raw hraw
    have hmap : ((Frames.read_pairs raw).map (·.1)).map toString = raw.map (·.1) := by
      conv_rhs => rw [← read_pairs_eq hfull.numbers]
      rw [List.map_map, List.map_map]
      rfl
    have hdrops (s' : ResendState) (h' : ResendInv cfg x score payload N ts s') :
        ResendInv cfg x score payload N (ts.set i {}) s' :=
      h'.moves hi (fun _ hraw' ↦ by cases hraw') (List.nil_subset _)
    have hcases := bump_cases h.holding.agrees expirable i ((Frames.read_pairs raw).map (·.1)) c
    rw [hmap] at hcases
    by_cases hmem : x.member ∈ raw.map (·.1)
    · have hsent := h.sent t (List.mem_of_getElem? hi) (sent_of_sentAll hdecode hfull hall hmem)
      refine .inl ?_
      rcases hcases with heq | ⟨s₁, rfl, heq | heq⟩ <;> rw [heq] <;> exact hsent
    · refine .inr ?_
      rcases hcases with heq | ⟨s₁, rfl, heq | heq⟩
      · rw [heq]
        exact hdrops _ h
      · rw [heq]
        exact hdrops _ (h.set fun _ ↦ h.holding.bump_loop hmem (hlater rfl))
      · rw [heq]
        exact h.returns hi hraw hmem (hlater rfl)
  · obtain ⟨hledger, hmarks⟩ := bump_other hne s expirable i ((Frames.read_pairs raw).map (·.1)) c
    exact .inr ((h.elsewhere hledger hmarks (bump_resent ..)).moves hi
      (fun _ hraw' ↦ by cases hraw') (List.nil_subset _))

/-- What has been sent stays sent. -/
theorem resent_of_call {o : FrameOp κ} {c : ResendChoice} {r : o.Res}
    (hx : ResendState.exec expirable i o c s = some (r, s')) : s.resent ⊆ s'.resent := by
  cases o with
  | routeOp o =>
    cases o with
    | routeCacheGet uid =>
      obtain ⟨-, rfl⟩ := Prod.mk.inj (Option.some.inj hx)
      exact List.Subset.refl _
    | deviceInstancesMap uid =>
      obtain ⟨-, rfl⟩ := Prod.mk.inj (Option.some.inj hx)
      exact List.Subset.refl _
    | routeCacheSet uid route =>
      obtain ⟨-, rfl⟩ := Prod.mk.inj (Option.some.inj hx)
      exact List.Subset.refl _
    | _ => cases hx
  | evalPeekDue uid did limit age =>
    rcases peek_cases (Option.some.inj hx) with ⟨raw, -, -, rfl⟩ | ⟨-, rfl | rfl⟩ <;>
      exact List.Subset.refl _
  | evalBumpScore uid did user_seqs =>
    obtain ⟨-, rfl⟩ := Prod.mk.inj (Option.some.inj hx)
    rw [bump_resent]
    exact List.Subset.refl _
  | localSend uid did payload =>
    obtain ⟨-, rfl⟩ := Prod.mk.inj (Option.some.inj hx)
    exact List.subset_cons_self _ _
  | _ => cases hx

/-- **Every call of a heartbeat.** -/
theorem sentOrWaits_call {o : FrameOp κ} {c : ResendChoice} {r : o.Res}
    (hdecode : cfg.base64_decode payload ≠ "") (h : SentOrWaits cfg x score payload N ts s)
    (hi : ts[i]? = some t) (ha : (resendContract κ cfg).allowed t o)
    (hG : (leavesDue κ x score).onOp i o c s)
    (hx : ResendState.exec expirable i o c s = some (r, s')) :
    SentOrWaits cfg x score payload N (ts.set i ((resendContract κ cfg).next t o r)) s' := by
  rcases h with hsent | h
  · exact .inl (resent_of_call hx hsent)
  cases o with
  | routeOp o =>
    cases o with
    | routeCacheGet uid =>
      obtain ⟨-, rfl⟩ := Prod.mk.inj (Option.some.inj hx)
      exact .inr (h.stays hi)
    | deviceInstancesMap uid =>
      obtain ⟨-, rfl⟩ := Prod.mk.inj (Option.some.inj hx)
      exact .inr (h.stays hi)
    | routeCacheSet uid route =>
      obtain ⟨-, rfl⟩ := Prod.mk.inj (Option.some.inj hx)
      exact .inr (h.stays hi)
    | _ => cases hx
  | evalPeekDue uid did limit age =>
    obtain rfl : limit = cfg.resend_batch := ha
    rcases peek_cases (Option.some.inj hx) with ⟨raw, rfl, hok, rfl⟩ | ⟨rfl, rfl | rfl⟩
    · have htaken := h.takes hi (fun hkey ↦ hG hkey) hok
      refine .inr (htaken.set fun hkey ↦ ?_)
      have hpeek := h.holding.peek c.hscan c.pttl (some (c.now - age)) (some cfg.resend_batch)
      rwa [← hkey] at hpeek
    · exact .inr (h.stays hi)
    · refine .inr ((h.set fun hkey ↦ ?_).stays hi)
      have hpeek := h.holding.peek c.hscan c.pttl (some (c.now - age)) (some cfg.resend_batch)
      rwa [← hkey] at hpeek
  | evalBumpScore uid did user_seqs =>
    obtain ⟨raw, hraw, rfl, hall⟩ := ha
    obtain ⟨-, rfl⟩ := Prod.mk.inj (Option.some.inj hx)
    exact h.bumps hi hdecode hraw hall fun hkey ↦ hG hkey
  | localSend uid did payload =>
    obtain ⟨-, rfl⟩ := Prod.mk.inj (Option.some.inj hx)
    exact .inr (h.sends hi _)
  | _ => cases hx

theorem sentOrWaits_event {p p' : ResendPool κ} {e : ResendEv}
    (h : SentOrWaits cfg x score payload N ts p.shared)
    (hm : p.Meets (resendContract κ cfg) (fun _ ↦ True) ts) (hG : (leavesDue κ x score).onEv e p)
    (hx : ResendState.env cfg expirable e p = some p') :
    ∃ ts', SentOrWaits cfg x score payload N ts' p'.shared ∧
      p'.Meets (resendContract κ cfg) (fun _ ↦ True) ts' := by
  cases e with
  | arrive hb =>
    obtain rfl := Option.some.inj hx
    refine ⟨ts ++ [{}], ?_, hm.spawn (Frames.heartbeat_meets hb) _⟩
    refine h.imp_right fun h ↦ ⟨h.holding, fun t ht ↦ ?_, fun t ht raw hraw ↦ ?_,
      h.fair.shrinks (Finset.Subset.refl _) fun j C hC ↦ ?_⟩
    · rcases List.mem_append.1 ht with ht | ht
      · exact h.sent t ht
      · obtain rfl := List.mem_singleton.1 ht
        exact List.nil_subset _
    · rcases List.mem_append.1 ht with ht | ht
      · exact h.batch t ht raw hraw
      · obtain rfl := List.mem_singleton.1 ht
        cases hraw
    · obtain ⟨t, raw, hj, hraw, hrest⟩ := hC
      rcases Pool.getElem?_append_cases hj with ⟨-, rfl⟩ | ⟨-, hj⟩
      · cases hraw
      · exact ⟨t, raw, hj, hraw, hrest⟩
  | push y payload' now ttl =>
    obtain rfl := Option.some.inj hx
    refine ⟨ts, h.imp_right fun h ↦ h.set fun hkey ↦ ?_, hm⟩
    obtain ⟨hne, hlater⟩ := hG hkey
    rw [hkey]
    exact h.holding.push expirable hkey hne hlater payload' ttl
  | ack y =>
    obtain rfl := Option.some.inj hx
    refine ⟨ts, h.imp_right fun h ↦ h.set fun hkey ↦ ?_, hm⟩
    rw [hkey]
    exact h.holding.ack hkey hG
  | crash i =>
    obtain rfl := Option.some.inj hx
    exact ⟨ts, h, hm.stop (fun _ ↦ trivial) i _⟩

end Invariant

/-- **Nothing that is due is left out for long.** An entry waits in a ledger, and its time has come.
Rounds of heartbeats on that ledger that lie one after another, each by whichever heartbeat, send it
as soon as there are more of them than it takes to take all that is ahead of it. That holds whatever
else happens between and within them: other heartbeats, pushes, acknowledgements, calls that fail or
take effect late, heartbeats that never finish. -/
theorem resend_fair (κ : Type) (cfg : FrameConfig) (expirable : ℤ → Bool) (s₀ : ResendState)
    (hmarks : ∀ key, s₀.marks key = []) (x : Numbered) (score : ℤ) (payload : String)
    (hx : Holding x score payload (s₀.ledgers x.key)) (hdecode : cfg.base64_decode payload ≠ "")
    (p : ResendPool κ) (hr : (resending κ cfg expirable).Reach (leavesDue κ x score) ⟨[], s₀⟩ p)
    (rounds : List ℕ) (hrounds : (Rotation.rounds rounds).Sublist (p.shared.marks x.key))
    (hmany : (UnackedPush.ahead (s₀.ledgers x.key) x.member).card <
      rounds.length * cfg.resend_batch.toNat) :
    (x.key, cfg.base64_decode payload) ∈ p.shared.resent := by
  have h₀ : SentOrWaits cfg x score payload
      (UnackedPush.ahead (s₀.ledgers x.key) x.member).card [] s₀ := by
    refine .inr ⟨hx, fun t ht ↦ ?_, fun t ht ↦ ?_, ?_⟩
    · cases ht
    · cases ht
    · rw [hmarks]
      exact Rotation.fair_nil le_rfl
  obtain ⟨ts, h, -⟩ : ∃ ts, SentOrWaits cfg x score payload
      (UnackedPush.ahead (s₀.ledgers x.key) x.member).card ts p.shared ∧
        p.Meets (resendContract κ cfg) (fun _ ↦ True) ts := by
    refine Machine.invariant hr ⟨[], h₀, .nil⟩ ?_ ?_
    · intro ts s i t o c r s' h hi ha hG hx
      exact ⟨trivial, sentOrWaits_call hdecode h hi ha hG hx⟩
    · intro ts p e p' h hm hG hx
      exact sentOrWaits_event h hm hG hx
  refine h.resolve_right fun h ↦ ?_
  have hle := h.fair.le hrounds
  omega

/-- A heartbeat takes one entry. -/
def oneByOne : FrameConfig where
  instance_id := "push1"
  local_route_cache := false
  resend_batch := 1
  base64_decode := id
  presence_change _ _ := ""

/-- Numbers 3 and 7 for a device of bob. -/
def bobWaits : ResendState where
  ledgers := Function.update (fun _ ↦ {}) ("bob", "phone")
    (UnackedPush.push (fun _ ↦ true) (UnackedPush.push (fun _ ↦ true) {} (some 10) "3" "YQ=="
      (some 300)).2 (some 20) "7" "Yg==" (some 300)).2

theorem holding_bobWaits :
    Holding ⟨"bob", "phone", 7⟩ 20 "Yg==" (bobWaits.ledgers ("bob", "phone")) := by
  have hempty : Agrees ({} : Ledger ℤ) fun _ ↦ none :=
    ⟨⟨.inl rfl, .inl rfl⟩, fun _ ↦ rfl, fun _ ↦ by simp [zscore, zmembers]⟩
  have hfirst := @push_agrees ℤ (fun _ ↦ true) _ _ hempty (some 10) "3" "YQ==" (some 300)
  have hagrees : Agrees (bobWaits.ledgers ("bob", "phone")) _ :=
    push_agrees hfirst (some 20) "7" "Yg==" (some 300)
  refine ⟨agrees_self hagrees, fun m hm ↦ ?_, by decide +kernel, by decide +kernel⟩
  rw [hagrees.payload] at hm
  split at hm
  · next h => exact ⟨7, h.1⟩
  · split at hm
    · next h => exact ⟨3, h.1⟩
    · cases hm

/-- A heartbeat of bob. -/
def heartbeatOfBob (i : ℕ) (now : ℤ) : List (Machine.Label ResendChoice ResendEv) :=
  [.event (.arrive { user_id := "bob" }),
    .call i { devices := .ok (AList.insert "phone" "push1" ∅) },
    .call i { now }, .call i {}, .call i { now }]

/-- The first of two heartbeats takes the other entry, the second one number 7. -/
theorem resend_fair_bob :
    ∃ p, (resending Unit oneByOne fun _ ↦ true).Reach (leavesDue Unit ⟨"bob", "phone", 7⟩ 20)
        ⟨[], bobWaits⟩ p ∧
      (("bob", "phone"), "Yg==") ∈ p.shared.resent := by
  obtain ⟨p, hp, hrounds⟩ := Machine.exists_of_run (resending Unit oneByOne fun _ ↦ true)
    (leavesDue Unit ⟨"bob", "phone", 7⟩ 20) ⟨[], bobWaits⟩
    (heartbeatOfBob 0 100 ++ heartbeatOfBob 1 130)
    (fun p ↦ (Rotation.rounds [1, 0]).Sublist (p.shared.marks ("bob", "phone")))
    (by decide +kernel)
  exact ⟨p, hp, resend_fair Unit oneByOne _ bobWaits (fun _ ↦ rfl) ⟨"bob", "phone", 7⟩ 20 "Yg=="
    holding_bobWaits (by decide) p hp [1, 0] hrounds (by decide +kernel)⟩

end ChatNow
