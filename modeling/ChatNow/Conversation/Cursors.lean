import ChatNow.Conversation.Rows

/-!
# What becomes of the cursors

`last_read_seq` and `last_ack_seq` are advanced by one `UPDATE` that takes the greater value, and
`transfer_owner` writes back rows that it has locked. The other methods read a row without a lock
and write all of it back, the cursors included; the header of `update` accepts that a cursor is put
back this way until the next acknowledgement, for the sake of not locking.

`cursors_go_back_with_snapshots` says that this is the only way: a cursor goes back only at the
commit of a row that the same thread has read before, to the values that it read, and in runs in
which a row is written back before its cursors have gone on (`snapshotsFresh`), they never do.
-/

namespace ChatNow

open Prog ConvOp

/-- No cursor of the first row is ahead of the second one's. -/
def ConversationMember.Behind (m m' : ConversationMember) : Prop :=
  m.last_read_seq ≤ m'.last_read_seq ∧ m.last_ack_seq ≤ m'.last_ack_seq

/-- The cursors of the second row are those of the first one. -/
def ConversationMember.SameCursors (m m' : ConversationMember) : Prop :=
  m'.last_read_seq = m.last_read_seq ∧ m'.last_ack_seq = m.last_ack_seq

instance (m m' : ConversationMember) : Decidable (m.Behind m') :=
  inferInstanceAs (Decidable (_ ∧ _))

theorem ConversationMember.Behind.refl (m : ConversationMember) : m.Behind m :=
  ⟨Nat.le_refl _, Nat.le_refl _⟩

theorem ConversationMember.Behind.trans {m m' m'' : ConversationMember} (h : m.Behind m')
    (h' : m'.Behind m'') : m.Behind m'' :=
  ⟨Nat.le_trans h.1 h'.1, Nat.le_trans h.2 h'.2⟩

theorem ConversationMember.SameCursors.behind {m m' : ConversationMember} (h : m.SameCursors m') :
    m.Behind m' :=
  ⟨Nat.le_of_eq h.1.symm, Nat.le_of_eq h.2.symm⟩

/-- A row is written back before its cursors have gone on. -/
def snapshotsFresh : Machine.Guard ConvOp ConvOp.Res ConvState ConvChoice ConvEv where
  onOp _ o ch s := ch.acts = true →
    ∀ m, o.rewrites = some m → ∀ m₀, s.members.find m.key = some m₀ → m₀.Behind m
  onEv _ _ := True

instance (i : ℕ) (o : ConvOp) (ch : ConvChoice) (s : ConvState) :
    Decidable (snapshotsFresh.onOp i o ch s) :=
  inferInstanceAs (Decidable (ch.acts = true → _))

instance (e : ConvEv) (p : ConvPool) : Decidable (snapshotsFresh.onEv e p) := .isTrue trivial

/-! ### What has been read -/

section Steps

variable {ts : List ConvCall} {s s' : ConvState} {i : ℕ} {t : ConvCall} {o : ConvOp} {r : o.Res}
  {ch : ConvChoice} {k : String × String} {m : ConversationMember}

namespace ConvState

theorem reads_of_commit {next : Option ConvState} {b : Bool} (hx : s.commit ch next = (b, s'))
    (hnext : ∀ s₁, next = some s₁ → s₁.reads = s.reads) : s'.reads = s.reads := by
  cases hn : next with
  | none =>
    rw [hn] at hx
    obtain ⟨-, rfl⟩ := Prod.mk.inj hx
    rfl
  | some s₁ =>
    rw [hn] at hx
    obtain ⟨-, rfl⟩ := Prod.mk.inj hx
    split
    · exact hnext s₁ hn
    · rfl

theorem reads_of_writeMember {s₁ : ConvState} (h : s.writeMember m = some s₁) :
    s₁.reads = s.reads := by
  obtain ⟨m₀, -, rfl⟩ := Option.map_eq_some_iff.1 h
  rfl

theorem reads_of_writeCounted {delta now : ℤ} {s₁ : ConvState}
    (h : s.writeCounted m delta now = some s₁) : s₁.reads = s.reads := by
  obtain ⟨s₂, hs₂, h⟩ := Option.bind_eq_some_iff.1 h
  obtain ⟨convs, -, rfl⟩ := Option.map_eq_some_iff.1 h
  have hreads := reads_of_writeMember hs₂
  exact hreads

theorem reads_of_transfer (cid old_owner_id new_owner_id : String) :
    (s.transfer cid old_owner_id new_owner_id).2.reads = s.reads := by
  unfold transfer
  split
  · split
    · rfl
    · split <;> rfl
  · rfl

theorem reads_of_advance (cid uid : String) (f : ConversationMember → ConversationMember) :
    (s.advance cid uid f).reads = s.reads := by
  unfold advance
  split <;> rfl

/-- Only a query for a member reads one. -/
theorem reads_of_exec (hx : s.exec i o ch = some (r, s')) :
    s'.reads = s.reads ∨ ∃ cid uid, o = selectMember cid uid ∧
      s'.reads = (s.members.find (cid, uid)).toList.map (i, ·) ++ s.reads := by
  cases o with
  | insertConv row =>
    refine .inl (reads_of_commit (Option.some.inj hx) fun s₁ h ↦ ?_)
    obtain ⟨convs, -, rfl⟩ := Option.map_eq_some_iff.1 h
    rfl
  | updateConv row =>
    refine .inl (reads_of_commit (Option.some.inj hx) fun s₁ h ↦ ?_)
    obtain ⟨c₀, -, rfl⟩ := Option.map_eq_some_iff.1 h
    rfl
  | append m =>
    refine .inl (reads_of_commit (Option.some.inj hx) fun s₁ h ↦ ?_)
    obtain ⟨rows, -, h⟩ := Option.bind_eq_some_iff.1 h
    obtain ⟨convs, -, rfl⟩ := Option.map_eq_some_iff.1 h
    rfl
  | appendAfterCreate rows =>
    refine .inl (reads_of_commit (Option.some.inj hx) fun s₁ h ↦ ?_)
    obtain ⟨table, -, rfl⟩ := Option.map_eq_some_iff.1 h
    rfl
  | updateMember m =>
    exact .inl (reads_of_commit (Option.some.inj hx) fun _ ↦ reads_of_writeMember)
  | writeRole m => exact .inl (reads_of_commit (Option.some.inj hx) fun _ ↦ reads_of_writeMember)
  | writeQuit m => exact .inl (reads_of_commit (Option.some.inj hx) fun _ ↦ reads_of_writeCounted)
  | writeRejoin m => exact .inl (reads_of_commit (Option.some.inj hx) fun _ ↦ reads_of_writeCounted)
  | transferOwner cid old_owner_id new_owner_id =>
    obtain ⟨-, rfl⟩ := Prod.mk.inj (Option.some.inj hx)
    refine .inl ?_
    split
    · exact reads_of_transfer cid old_owner_id new_owner_id
    · rfl
  | updateLastReadSeq cid uid new_seq =>
    obtain ⟨-, rfl⟩ := Prod.mk.inj (Option.some.inj hx)
    refine .inl ?_
    split
    · exact reads_of_advance cid uid _
    · rfl
  | updateLastAckSeq cid uid new_seq =>
    obtain ⟨-, rfl⟩ := Prod.mk.inj (Option.some.inj hx)
    refine .inl ?_
    split
    · exact reads_of_advance cid uid _
    · rfl
  | selectMember cid uid =>
    have hx' := Option.some.inj hx
    split at hx'
    · obtain ⟨-, rfl⟩ := Prod.mk.inj hx'
      exact .inl rfl
    · obtain ⟨-, rfl⟩ := Prod.mk.inj hx'
      exact .inr ⟨cid, uid, rfl, rfl⟩
  | _ =>
    obtain ⟨-, rfl⟩ := Prod.mk.inj (Option.some.inj hx)
    exact .inl rfl

theorem mem_reads_of_exec (hx : s.exec i o ch = some (r, s')) {x : ℕ × ConversationMember}
    (h : x ∈ s.reads) : x ∈ s'.reads := by
  rcases reads_of_exec hx with heq | ⟨cid, uid, -, heq⟩ <;> rw [heq]
  · exact h
  · exact List.mem_append_right _ h

end ConvState

/-- What a call holds it has read. -/
def HeldRead (ts : List ConvCall) (s : ConvState) : Prop :=
  ∀ (i : ℕ) t, ts[i]? = some t → ∀ m, t.held = some m → (i, m) ∈ s.reads

theorem held_of_next (hx : s.exec i o ch = some (r, s')) {m : ConversationMember}
    (h : (t.next o r).held = some m) : t.held = some m ∨ (i, m) ∈ s'.reads := by
  unfold ConvCall.next at h
  split at h
  · next cid uid m' =>
    obtain rfl := Option.some.inj h
    have hm := ConvState.find_of_selectMember hx
    have hx' := Option.some.inj hx
    split at hx'
    · cases (Prod.mk.inj hx').1
    · obtain ⟨-, rfl⟩ := Prod.mk.inj hx'
      refine .inr (List.mem_append_left _ ?_)
      rw [hm]
      exact List.mem_singleton.2 rfl
  all_goals exact .inl h

theorem heldRead_call (hI : HeldRead ts s) (hi : ts[i]? = some t)
    (hx : s.exec i o ch = some (r, s')) : HeldRead (ts.set i (t.next o r)) s' := by
  intro j u hu m hm
  rcases Pool.getElem?_set_cases hu with ⟨rfl, rfl⟩ | ⟨-, hold⟩
  · rcases held_of_next hx hm with hheld | hread
    · exact ConvState.mem_reads_of_exec hx (hI j t hi m hheld)
    · exact hread
  · exact ConvState.mem_reads_of_exec hx (hI j u hold m hm)

/-! ### What a step does to the cursors -/

/-- A row with the same cursors is written over another. -/
theorem cursors_of_write {members : Table ConversationMember.key} {a b : ConversationMember}
    (h : members.find b.key = some a) (hsame : a.SameCursors b) (hm : members.find k = some m) :
    ∃ m', (members.write b).find k = some m' ∧ m.SameCursors m' := by
  rcases eq_or_ne b.key k with rfl | hne
  · obtain rfl := Option.some.inj (h.symm.trans hm)
    exact ⟨b, Table.find_write_self h, hsame⟩
  · exact ⟨m, (Table.find_write_ne _ hne).trans hm, rfl, rfl⟩

/-- A transfer leaves the cursors. -/
theorem cursors_of_exchange {cid old_owner_id new_owner_id : String} {m1 m2 : ConversationMember}
    (h1 : s.members.find (cid, old_owner_id) = some m1)
    (h2 : s.members.find (cid, new_owner_id) = some m2) (hm : s.members.find k = some m) :
    ∃ m', (s.exchange m1 m2).find k = some m' ∧ m.SameCursors m' := by
  have hkey1 : m1.key = (cid, old_owner_id) := Table.key_of_find h1
  have hkey2 : m2.key = (cid, new_owner_id) := Table.key_of_find h2
  have hfind1 : s.members.find m1.key = some m1 := hkey1 ▸ h1
  have hfirst {k : String × String} {m : ConversationMember} (hm : s.members.find k = some m) :
      ∃ m', (s.members.write { m1 with role := .ADMIN }).find k = some m' ∧ m.SameCursors m' :=
    cursors_of_write (b := { m1 with role := .ADMIN }) hfind1 ⟨rfl, rfl⟩ hm
  obtain ⟨m₀, hm₀, hsame₀⟩ := hfirst h2
  obtain ⟨m', hm', hsame'⟩ := hfirst hm
  rw [← hkey2] at hm₀
  obtain ⟨m'', hm'', hsame''⟩ := cursors_of_write (b := { m2 with role := .OWNER }) hm₀
    ⟨hsame₀.1.symm, hsame₀.2.symm⟩ hm'
  exact ⟨m'', hm'', hsame''.1.trans hsame'.1, hsame''.2.trans hsame'.2⟩

theorem row_of_write {m₁ : ConversationMember} (hm : s.members.find k = some m) :
    (s.members.write m₁).find k = some (if m₁.key = k then m₁ else m) := by
  rw [Table.find_write, hm]
  rfl

/-- What is found after a step is no further back, or it has been written over what was there. -/
theorem row_of_move (hmove : ConvMove s ch o s') (hm : s.members.find k = some m) :
    ∃ m', s'.members.find k = some m' ∧
      (m.Behind m' ∨ ch.acts = true ∧ o.rewrites = some m' ∧ m'.key = k) := by
  have hwritten {m₁ : ConversationMember} (hacts : ch.acts = true) (ho : o.rewrites = some m₁) :
      ∃ m', (s.members.write m₁).find k = some m' ∧
        (m.Behind m' ∨ ch.acts = true ∧ o.rewrites = some m' ∧ m'.key = k) := by
    refine ⟨_, row_of_write hm, ?_⟩
    split
    · next hk => exact .inr ⟨hacts, ho, hk⟩
    · exact .inl (.refl m)
  cases hmove with
  | stay _ hmembers _ => exact ⟨m, by rw [hmembers]; exact hm, .inl (.refl m)⟩
  | found _ => exact ⟨m, hm, .inl (.refl m)⟩
  | restore _ _ => exact ⟨m, hm, .inl (.refl m)⟩
  | people hinsert => exact ⟨m, Table.find_of_insertAll hinsert hm, .inl (.refl m)⟩
  | @join m' members _ hinsert _ =>
    have hall : s.members.insertAll [m'] = some members := by
      rw [Table.insertAll, hinsert]
      rfl
    exact ⟨m, Table.find_of_insertAll hall hm, .inl (.refl m)⟩
  | rewrite hacts ho _ _ => exact hwritten hacts ho
  | recount hacts ho _ _ _ => exact hwritten hacts ho
  | transfer _ h1 h2 _ _ _ =>
    obtain ⟨m', hm', hsame⟩ := cursors_of_exchange h1 h2 hm
    exact ⟨m', hm', .inl hsame.behind⟩
  | half h1 h2 _ =>
    obtain ⟨m', hm', hsame⟩ := cursors_of_exchange h1 h2 hm
    exact ⟨m', hm', .inl hsame.behind⟩
  | @advance _ m₀ m₁ hfind hadv _ =>
    refine ⟨_, row_of_write hm, .inl ?_⟩
    split
    · next hk =>
      rw [hadv.key] at hk
      rw [hk, hm] at hfind
      obtain rfl := Option.some.inj hfind
      exact ⟨hadv.read, hadv.ack⟩
    · exact .refl m

end Steps

/-! ### Over a run -/

variable {cfg : ConversationServiceConfig}

/-- In runs in which a row is written back before its cursors have gone on, they do not go back. -/
theorem behind_of_reach {p₀ p : ConvPool}
    (hr : (conversationService cfg).Reach snapshotsFresh p₀ p) {k : String × String}
    {m : ConversationMember} (hm : p₀.shared.members.find k = some m) :
    ∃ m', p.shared.members.find k = some m' ∧ m.Behind m' := by
  induction hr with
  | refl => exact ⟨m, hm, .refl m⟩
  | tail _ hs ih =>
    obtain ⟨m₁, hm₁, hbehind⟩ := ih
    cases hs with
    | call _ hG hx =>
      obtain ⟨m₂, hm₂, hback | ⟨hacts, ho, hkey⟩⟩ := row_of_move (.of_exec hx) hm₁
      · exact ⟨m₂, hm₂, hbehind.trans hback⟩
      · exact ⟨m₂, hm₂, hbehind.trans (hG hacts m₂ ho m₁ (hkey ▸ hm₁))⟩
    | @event _ e _ hx =>
      cases e with
      | arrive auth_uid req =>
        obtain rfl := Option.some.inj hx
        exact ⟨m₁, hm₁, hbehind⟩
      | crash i =>
        obtain rfl := Option.some.inj hx
        exact ⟨m₁, hm₁, hbehind⟩

/-- A step of any run puts a cursor back only to what the thread that makes it has read before. -/
theorem back_to_a_read {p₀ p : ConvPool}
    (h₀ : (conversationService cfg).Reach .any ⟨[], {}⟩ p₀)
    (hs : (conversationService cfg).Step .any p₀ p) {k : String × String} {m : ConversationMember}
    (hm : p₀.shared.members.find k = some m) :
    ∃ m', p.shared.members.find k = some m' ∧ (m.Behind m' ∨ ∃ i o m₀, p₀.Calls i o ∧
      o.rewrites = some m' ∧ (i, m₀) ∈ p₀.shared.reads ∧ m₀.key = k ∧ m₀.SameCursors m') := by
  obtain ⟨ts, -, hread, hmeets⟩ := conv_invariant (I := HeldRead) h₀
    (fun _ _ hi ↦ absurd hi.symm (Option.some_ne_none _))
    (fun _ hI hi _ _ hx _ ↦ heldRead_call hI hi hx)
    (fun hI _ j u hu m hheld ↦ by
      rcases Pool.getElem?_append_cases hu with ⟨-, rfl⟩ | ⟨-, hold⟩
      · cases hheld
      · exact hI j u hold m hheld)
  cases hs with
  | call hi _ hx =>
    obtain ⟨m', hm', hback | ⟨-, ho, hkey⟩⟩ := row_of_move (.of_exec hx) hm
    · exact ⟨m', hm', .inl hback⟩
    · obtain ⟨t, ht, hallowed⟩ := hmeets.calls ⟨_, hi⟩
      obtain ⟨m₀, hheld, hchanges⟩ := hallowed.1 m' ho
      exact ⟨m', hm', .inr ⟨_, _, m₀, ⟨_, hi⟩, ho, hread _ t ht m₀ hheld,
        hchanges.key.symm.trans hkey, hchanges.last_read_seq, hchanges.last_ack_seq⟩⟩
  | @event _ e _ hx =>
    cases e with
    | arrive auth_uid req =>
      obtain rfl := Option.some.inj hx
      exact ⟨m, hm, .inl (.refl m)⟩
    | crash i =>
      obtain rfl := Option.some.inj hx
      exact ⟨m, hm, .inl (.refl m)⟩

/-- **Cursors go back with snapshots only.** From any state that can be reached, a step puts a
cursor of a row back only when it writes back a row that its thread has read before, to the cursors
that it has read; and a run in which rows are written back before their cursors have gone on leaves
every row with cursors that are no further back. -/
theorem cursors_go_back_with_snapshots {p₀ : ConvPool}
    (h₀ : (conversationService cfg).Reach .any ⟨[], {}⟩ p₀) (k : String × String)
    (m : ConversationMember) (hm : p₀.shared.members.find k = some m) :
    (∀ p, (conversationService cfg).Step .any p₀ p →
      ∃ m', p.shared.members.find k = some m' ∧ (m.Behind m' ∨ ∃ i o m₀, p₀.Calls i o ∧
        o.rewrites = some m' ∧ (i, m₀) ∈ p₀.shared.reads ∧ m₀.key = k ∧ m₀.SameCursors m')) ∧
    ∀ p, (conversationService cfg).Reach snapshotsFresh p₀ p →
      ∃ m', p.shared.members.find k = some m' ∧ m.Behind m' :=
  ⟨fun _ hs ↦ back_to_a_read h₀ hs hm, fun _ hr ↦ behind_of_reach hr hm⟩

/-- Alice and bob have a group, of which alice reads the first five messages. -/
def aliceReads : List (Machine.Label ConvChoice ConvEv) :=
  [.event (.arrive "alice" (.create { type := .GROUP, member_ids := ["bob"] })),
    .call 0 { uuid := "1" }] ++ List.replicate 7 (.call 0 {}) ++
  .event (.arrive "alice" (.mute "g_1" true)) ::
  .event (.arrive "alice" (.read "g_1" 5)) :: List.replicate 3 (.call 2 {})

theorem cursors_go_back_with_snapshots_alice :
    ∃ p₀ m, (conversationService ⟨""⟩).Reach .any ⟨[], {}⟩ p₀ ∧
      p₀.shared.members.find ("g_1", "alice") = some m ∧ m.last_read_seq = 5 ∧
      (∀ p, (conversationService ⟨""⟩).Step .any p₀ p →
        ∃ m', p.shared.members.find ("g_1", "alice") = some m' ∧ (m.Behind m' ∨
          ∃ i o m₀, p₀.Calls i o ∧ o.rewrites = some m' ∧ (i, m₀) ∈ p₀.shared.reads ∧
            m₀.key = ("g_1", "alice") ∧ m₀.SameCursors m')) ∧
      ∀ p, (conversationService ⟨""⟩).Reach snapshotsFresh p₀ p →
        ∃ m', p.shared.members.find ("g_1", "alice") = some m' ∧ m.Behind m' := by
  obtain ⟨p, hp, hseq⟩ := Machine.exists_of_run (conversationService ⟨""⟩) .any ⟨[], {}⟩ aliceReads
    (fun p ↦ (p.shared.members.find ("g_1", "alice")).map (·.last_read_seq) = some 5)
    (by decide +kernel)
  obtain ⟨m, hm, hfive⟩ := Option.map_eq_some_iff.1 hseq
  have hcursors := cursors_go_back_with_snapshots hp ("g_1", "alice") m hm
  exact ⟨p, m, hp, hm, hfive, hcursors⟩

/-- **A cursor goes back**: alice mutes the group on one device and reads it on another, and the row
that the first has read is written back after the second has advanced the cursor. -/
theorem read_cursor_goes_back :
    ∃ p₀ p, (conversationService ⟨""⟩).Reach .any ⟨[], {}⟩ p₀ ∧
      (conversationService ⟨""⟩).Reach .any p₀ p ∧
      (p₀.shared.members.find ("g_1", "alice")).map (·.last_read_seq) = some 5 ∧
      (p.shared.members.find ("g_1", "alice")).map (·.last_read_seq) = some 0 := by
  obtain ⟨p₀, hp₀, h5, hback⟩ := Machine.exists_of_run (conversationService ⟨""⟩) .any ⟨[], {}⟩
    (aliceReads.take 10 ++ .call 1 {} :: aliceReads.drop 10)
    (fun p ↦ (p.shared.members.find ("g_1", "alice")).map (·.last_read_seq) = some 5 ∧
      ((conversationService ⟨""⟩).run .any p [.call 1 {}]).any (fun p' ↦
        (p'.shared.members.find ("g_1", "alice")).map (·.last_read_seq) = some 0) = true)
    (by decide +kernel)
  obtain ⟨p, hp, h0⟩ :=
    Machine.exists_of_run (conversationService ⟨""⟩) .any p₀ [.call 1 {}] _ hback
  exact ⟨p₀, p, hp₀, hp, h5, h0⟩

end ChatNow
