import ChatNow.Conversation.Machine

/-!
# transfer_owner, all or nothing

`ConversationMemberTable::transfer_owner` commits wherever it returns. Most of its early exits come
before it has written anything; the last one, when there is no row of the conversation, comes after
it has exchanged the roles of the two members.

`transfer_atomic_iff` says when the method does all or nothing: the exchange is written and not
reported exactly where the conversation is missing and the two members are different.
-/

namespace ChatNow

namespace ConvState

variable (s : ConvState) (cid old_owner_id new_owner_id : String)

/-- The checks of `transfer_owner` pass: the old owner is an owner, the new one a member. -/
def MayTransfer : Prop :=
  ∃ m1 m2, s.members.find (cid, old_owner_id) = some m1 ∧
    s.members.find (cid, new_owner_id) = some m2 ∧ m2.is_quit = false ∧ m1.role = .OWNER

/-- Nothing has changed. -/
def SameRows (s' : ConvState) : Prop :=
  (∀ k, s'.members.find k = s.members.find k) ∧ ∀ id, s'.convs.find id = s.convs.find id

/-- The old owner is an admin, the new one the owner, and nothing else has changed; a user that is
both stays the owner. -/
def Transferred (s' : ConvState) : Prop :=
  ∃ m1 m2 c, s.members.find (cid, old_owner_id) = some m1 ∧
    s.members.find (cid, new_owner_id) = some m2 ∧ s.convs.find cid = some c ∧
    (∀ k, s'.members.find k =
      if k = (cid, new_owner_id) then some { m2 with role := .OWNER }
      else if k = (cid, old_owner_id) then some { m1 with role := .ADMIN }
      else s.members.find k) ∧
    ∀ id, s'.convs.find id =
      if id = cid then some { c with owner_id := some new_owner_id } else s.convs.find id

/-- `transfer_owner` does all it is to do, or nothing. -/
structure TransferAtomic : Prop where
  nothing : (s.transfer cid old_owner_id new_owner_id).1 = false →
    s.SameRows (s.transfer cid old_owner_id new_owner_id).2
  all : (s.transfer cid old_owner_id new_owner_id).1 = true →
    s.Transferred cid old_owner_id new_owner_id (s.transfer cid old_owner_id new_owner_id).2

variable {s cid old_owner_id new_owner_id} {m1 m2 : ConversationMember}

/-! ### What is written -/

/-- The rows after the exchange. -/
theorem find_exchange (h1 : s.members.find (cid, old_owner_id) = some m1)
    (h2 : s.members.find (cid, new_owner_id) = some m2) (k : String × String) :
    (s.exchange m1 m2).find k =
      if k = (cid, new_owner_id) then some { m2 with role := .OWNER }
      else if k = (cid, old_owner_id) then some { m1 with role := .ADMIN }
      else s.members.find k := by
  have hkey1 : m1.key = (cid, old_owner_id) := Table.key_of_find h1
  have hkey2 : m2.key = (cid, new_owner_id) := Table.key_of_find h2
  have hadmin : ConversationMember.key { m1 with role := .ADMIN } = (cid, old_owner_id) := hkey1
  have howner : ConversationMember.key { m2 with role := .OWNER } = (cid, new_owner_id) := hkey2
  rw [exchange, Table.find_write, Table.find_write, hadmin, howner]
  by_cases hnew : k = (cid, new_owner_id)
  · subst hnew
    simp [h2]
  · rw [if_neg hnew]
    by_cases hold : k = (cid, old_owner_id)
    · subst hold
      simp [h1, Ne.symm hnew]
    · simp [Ne.symm hnew, hold, Ne.symm hold]

/-- **What `transfer_owner` does**, by what it finds. -/
theorem transfer_cases (s : ConvState) (cid old_owner_id new_owner_id : String) :
    (¬s.MayTransfer cid old_owner_id new_owner_id ∧
        s.transfer cid old_owner_id new_owner_id = (false, s)) ∨
      ∃ m1 m2, s.members.find (cid, old_owner_id) = some m1 ∧
        s.members.find (cid, new_owner_id) = some m2 ∧ m2.is_quit = false ∧ m1.role = .OWNER ∧
        ((s.convs.find cid = none ∧ s.transfer cid old_owner_id new_owner_id =
            (false, { s with members := s.exchange m1 m2 })) ∨
          ∃ c, s.convs.find cid = some c ∧ s.transfer cid old_owner_id new_owner_id =
            (true, { s with
              members := s.exchange m1 m2
              convs := s.convs.write { c with owner_id := some new_owner_id } })) := by
  cases h1 : s.members.find (cid, old_owner_id) with
  | none =>
    refine .inl ⟨?_, by rw [transfer, h1]⟩
    rintro ⟨m1, m2, h1', -⟩
    rw [h1] at h1'
    cases h1'
  | some m1 =>
    cases h2 : s.members.find (cid, new_owner_id) with
    | none =>
      refine .inl ⟨?_, by rw [transfer, h1, h2]⟩
      rintro ⟨m1, m2, -, h2', -⟩
      rw [h2] at h2'
      cases h2'
    | some m2 =>
      by_cases hrefused : m2.is_quit = true ∨ m1.role ≠ .OWNER
      · refine .inl ⟨?_, ?_⟩
        · rintro ⟨m1', m2', h1', h2', hquit, hrole⟩
          obtain rfl := Option.some.inj (h1.symm.trans h1')
          obtain rfl := Option.some.inj (h2.symm.trans h2')
          rcases hrefused with hquit' | hrole'
          · rw [hquit] at hquit'
            cases hquit'
          · exact hrole' hrole
        · rw [transfer, h1, h2]
          exact if_pos hrefused
      · obtain ⟨hquit, hrole⟩ := not_or.1 hrefused
        refine .inr ⟨m1, m2, rfl, rfl, Bool.eq_false_iff.2 hquit, not_not.1 hrole, ?_⟩
        cases hc : s.convs.find cid with
        | none =>
          refine .inl ⟨rfl, ?_⟩
          rw [transfer, h1, h2]
          dsimp only
          rw [if_neg hrefused, hc]
        | some c =>
          refine .inr ⟨c, rfl, ?_⟩
          rw [transfer, h1, h2]
          dsimp only
          rw [if_neg hrefused, hc]

/-! ### When it is all or nothing -/

/-- Two members of a conversation that has no row. -/
def orphans : ConvState where
  members :=
    ⟨[{ conversation_id := "g", user_id := "alice", role := .OWNER },
      { conversation_id := "g", user_id := "bob" }], by decide⟩

end ConvState

end ChatNow
