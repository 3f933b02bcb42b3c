import ChatNow.Message.Handlers

/-!
# The contract of a recall, a pin and an unpin

How far a call of `RecallMessage`, `PinMessage` or `UnpinMessage` has come (`MsgPhase`), and what it
may still do: one write and one notice at most, success only after the notice, and which error
where. A recall that is refused before it comes to `update_status_to_recalled` is refused with one
of `recall_refusals`, or because the message has been recalled.
-/

namespace ChatNow

open Prog

/-- How far a call has come. -/
inductive MsgPhase
  /-- Nothing has been written or counted. -/
  | idle
  /-- `update_status_to_recalled` has read the row. -/
  | holds (m : MessageRow)
  /-- `update_status_to_recalled` has answered. -/
  | decided (ok : Bool)
  /-- The pins have been counted. -/
  | counted (n : ℕ)
  /-- The row of the pin has been inserted or removed, or that has failed. -/
  | done (ok : Bool)
  /-- The notice has been published. -/
  | announced
  /-- The response has been sent. -/
  | closed (rsp : Except ServiceError Unit)

/-- A call, and how far it has come. -/
structure MsgThread where
  call : MsgCall
  phase : MsgPhase := .idle

/-- Why a caller may not recall a message. -/
def recall_refusals : List ServiceError :=
  [⟨error.kMessageNotFound, "mid not found"⟩, ⟨error.kMessageNotFound, "cid mismatch"⟩,
    ⟨error.kMessageNotFound, "deleted"⟩, not_member,
    ⟨error.kConversationNoPermission, "not msg author"⟩,
    ⟨error.kMessageRecallTimeout, "exceed 120s window"⟩]

/-- A recall that does not come to the update may answer so. -/
def RecallRefused (e : ServiceError) : Prop :=
  e.code = error.kMessageAlreadyRecalled ∨ e ∈ recall_refusals

/-- The call may answer so. -/
def MsgThread.Answers (t : MsgThread) : Except ServiceError Unit → Prop
  | .ok () => t.phase = .announced
  | .error e =>
    match t.call, t.phase with
    | .recalls _ _, .idle => RecallRefused e
    | .recalls _ _, .decided ok => ok = false ∧ e.code = error.kMessageAlreadyRecalled
    | .pins _ _, .counted n => kPinLimit ≤ n ∧ e = pin_limit_exceeded
    | .pins _ _, .done ok => ok = false ∧ e = pin_insert_failed
    | .pins _ _, .idle => True
    | .unpins _ _, .idle => True
    | .unpins _ _, .done ok => ok = false
    | _, _ => False

/-- What a call may do, and what it gets. -/
def msgContract : Contract MsgOp MsgOp.Res MsgThread where
  allowed t o :=
    match o with
    | .selectNormal mid => ∃ uid req, t = ⟨.recalls uid req, .idle⟩ ∧ mid = req.mid
    | .updateRecalled m => ∃ uid req m₀, t = ⟨.recalls uid req, .holds m₀⟩ ∧ m = m₀.recalled
    | .countPins cid => ∃ uid req, t = ⟨.pins uid req, .idle⟩ ∧ cid = req.conversation_id
    | .insertPin p => ∃ uid req n, t = ⟨.pins uid req, .counted n⟩ ∧ n < kPinLimit ∧
        p.key = (req.conversation_id, req.mid)
    | .removePin _ _ => ∃ uid req, t = ⟨.unpins uid req, .idle⟩
    | .publish n =>
      match t.call, t.phase with
      | .recalls _ req, .decided ok => ok = true ∧ n = .recalled req.conversation_id req.message_id
      | .pins uid req, .done ok => ok = true ∧ n = .pin req.conversation_id req.message_id uid true
      | .unpins uid req, .done ok =>
        ok = true ∧ n = .pin req.conversation_id req.message_id uid false
      | _, _ => False
    | .respond rsp => t.Answers rsp
    | _ => True
  admits _ o r :=
    match o, r with
    | .selectNormal mid, some m => m.message_id = mid
    | _, _ => True
  next t o r :=
    match o, r with
    | .selectNormal _, some m => { t with phase := .holds m }
    | .selectNormal _, none => { t with phase := .decided false }
    | .updateRecalled _, ok => { t with phase := .decided ok }
    | .countPins _, n => { t with phase := .counted n }
    | .insertPin _, ok => { t with phase := .done ok }
    | .removePin _ _, ok => { t with phase := .done ok }
    | .publish _, _ => { t with phase := .announced }
    | .respond rsp, _ => { t with phase := .closed rsp }
    | _, _ => t

section Meets

variable {uid cid : String} {req : MessageRef} {t : MsgThread}

/-- The role of a member; the call stands where it stood. -/
theorem conv_role_meets : (conv_role_ cid uid).Meets msgContract t fun t' role ↦
    t' = t ∧ ∀ e, role = .error e → e = not_member := by
  rw [conv_role_]
  split
  · exact ⟨rfl, fun e he ↦ by cases he⟩
  · refine meets_op_bind.2 ⟨trivial, fun self _ ↦ ?_⟩
    cases self with
    | none =>
      refine ⟨rfl, fun e he ↦ ?_⟩
      cases he
      rfl
    | some self =>
      refine ⟨rfl, fun e he ↦ ?_⟩
      split at he
      · cases he
        rfl
      · cases he

theorem row_refusal_refused {msg : MessageRow} {e : ServiceError}
    (h : row_refusal cid msg = some e) : RecallRefused e := by
  rw [row_refusal] at h
  split at h
  · cases h
    exact .inr (by decide)
  · split at h
    · cases h
      exact .inl rfl
    · split at h
      · cases h
        exact .inr (by decide)
      · cases h

theorem caller_refusal_refused {role : MemberRole} {msg : MessageRow} {now : Int64}
    {e : ServiceError} (h : caller_refusal role uid msg now = some e) : RecallRefused e := by
  simp only [caller_refusal] at h
  split at h
  · cases h
  · split at h
    · cases h
      exact .inr (by decide)
    · split at h
      · cases h
        exact .inr (by decide)
      · cases h

theorem recall_allowed_meets : (recall_allowed req).Meets msgContract ⟨.recalls uid req, .idle⟩
    MsgThread.Answers := by
  have hupdate : (MessageTable.update_status_to_recalled req.mid).Meets msgContract
      ⟨.recalls uid req, .idle⟩ fun t ok ↦ t = ⟨.recalls uid req, .decided ok⟩ := by
    refine meets_op_bind.2 ⟨⟨uid, req, rfl, rfl⟩, fun m _ ↦ ?_⟩
    cases m with
    | none => rfl
    | some m => exact ⟨⟨uid, req, m, rfl, rfl⟩, fun ok _ ↦ rfl⟩
  refine hupdate.bind fun t ok ht ↦ ?_
  obtain rfl := ht
  cases ok with
  | false => exact ⟨rfl, rfl⟩
  | true => exact meets_op_bind.2 ⟨⟨rfl, rfl⟩, fun _ _ ↦ rfl⟩

/-- `RecallMessage` keeps to the contract. -/
theorem RecallMessage_meets :
    (RecallMessage uid req).Meets msgContract ⟨.recalls uid req, .idle⟩ fun _ _ ↦ True := by
  have hbody : (recall_message uid req).Meets msgContract ⟨.recalls uid req, .idle⟩
      MsgThread.Answers := by
    refine meets_op_bind.2 ⟨trivial, fun msg _ ↦ ?_⟩
    cases msg with
    | none => exact .inr (by decide)
    | some msg =>
      dsimp only
      cases hrow : row_refusal req.conversation_id msg with
      | some e => exact row_refusal_refused hrow
      | none =>
        refine conv_role_meets.bind fun t role ht ↦ ?_
        obtain ⟨rfl, hrole⟩ := ht
        cases role with
        | error e =>
          rw [hrole e rfl]
          exact .inr (by decide)
        | ok role =>
          refine meets_op_bind.2 ⟨trivial, fun now _ ↦ ?_⟩
          cases hcaller : caller_refusal role uid msg now with
          | some e => exact caller_refusal_refused hcaller
          | none => exact recall_allowed_meets
  exact hbody.bind fun t rsp ht ↦ ⟨ht, fun _ _ ↦ trivial⟩

theorem pin_right_meets (refusal : String) :
    (pin_right cid uid refusal).Meets msgContract t fun t' _ ↦ t' = t := by
  refine conv_role_meets.bind fun t' role ht ↦ ?_
  obtain ⟨rfl, -⟩ := ht
  cases role <;> rfl

theorem pin_found_meets :
    (pin_found uid req).Meets msgContract ⟨.pins uid req, .idle⟩ MsgThread.Answers := by
  refine meets_op_bind.2 ⟨⟨uid, req, rfl, rfl⟩, fun n _ ↦ ?_⟩
  split
  · next hn => exact ⟨hn, rfl⟩
  · next hn =>
    refine meets_op_bind.2 ⟨trivial, fun now _ ↦ meets_op_bind.2 ⟨?_, fun ok _ ↦ ?_⟩⟩
    · exact ⟨uid, req, n, rfl, Nat.lt_of_not_le hn, rfl⟩
    · cases ok with
      | false => exact ⟨rfl, rfl⟩
      | true => exact meets_op_bind.2 ⟨⟨rfl, rfl⟩, fun _ _ ↦ rfl⟩

/-- `PinMessage` keeps to the contract. -/
theorem PinMessage_meets :
    (PinMessage uid req).Meets msgContract ⟨.pins uid req, .idle⟩ fun _ _ ↦ True := by
  have hbody : (pin_message uid req).Meets msgContract ⟨.pins uid req, .idle⟩
      MsgThread.Answers := by
    refine (pin_right_meets _).bind fun t right ht ↦ ?_
    obtain rfl := ht
    cases right with
    | error e => trivial
    | ok _ =>
      refine meets_op_bind.2 ⟨trivial, fun msg _ ↦ ?_⟩
      cases msg with
      | none => trivial
      | some msg =>
        show Prog.Meets _ (ite _ _ _) _ _
        split
        · trivial
        · exact pin_found_meets
  exact hbody.bind fun t rsp ht ↦ ⟨ht, fun _ _ ↦ trivial⟩

/-- `UnpinMessage` keeps to the contract. -/
theorem UnpinMessage_meets :
    (UnpinMessage uid req).Meets msgContract ⟨.unpins uid req, .idle⟩ fun _ _ ↦ True := by
  have hbody : (unpin_message uid req).Meets msgContract ⟨.unpins uid req, .idle⟩
      MsgThread.Answers := by
    refine (pin_right_meets _).bind fun t right ht ↦ ?_
    obtain rfl := ht
    cases right with
    | error e => trivial
    | ok _ =>
      refine meets_op_bind.2 ⟨⟨uid, req, rfl⟩, fun ok _ ↦ ?_⟩
      cases ok with
      | false => rfl
      | true => exact meets_op_bind.2 ⟨⟨rfl, rfl⟩, fun _ _ ↦ rfl⟩
  exact hbody.bind fun t rsp ht ↦ ⟨ht, fun _ _ ↦ trivial⟩

/-- Every call keeps to the contract. -/
theorem MsgCall.text_meets (c : MsgCall) :
    c.text.Meets msgContract ⟨c, .idle⟩ fun _ _ ↦ True := by
  cases c with
  | recalls uid req => exact RecallMessage_meets
  | pins uid req => exact PinMessage_meets
  | unpins uid req => exact UnpinMessage_meets

end Meets

/-- The service answers as the contract has it. -/
theorem msgContract_admits {t : MsgThread} {s s' : MsgState} {i : ℕ} {o : MsgOp} {c : MsgChoice}
    {r : o.Res} (hx : s.exec i o c = some (r, s')) : msgContract.admits t o r := by
  cases o with
  | selectNormal mid =>
    obtain ⟨hr, -⟩ := Prod.mk.inj (Option.some.inj hx)
    cases r with
    | none => trivial
    | some m =>
      have hfind : s.messages.find mid = some m :=
        (Option.filter_eq_some_iff.1 (Option.ite_none_left_eq_some.1 hr).2).1
      exact Table.key_of_find hfind
  | now_ms | clock | selectById | updateRecalled | selectSelf | countPins | insertPin | removePin
    | publish | respond => trivial

end ChatNow
