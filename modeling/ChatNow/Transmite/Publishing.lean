import ChatNow.Transmite.SendMessage

/-!
# What a published message rests on

Two operations of `SendMessage` decide who may send: the lookup of the members, and the publish.
`sendMessage_meets_of_ignores` is the rule for contracts that look at these two only. What is
published is a message of the request (`OfRequest`), for the members that have been looked up last,
and the sender is one of them.
-/

namespace ChatNow

open Prog PipeOp SendMessage

/-- The operation neither looks up members nor publishes. -/
def PipeOp.quiet : PipeOp → Bool
  | resolveMembers _ => false
  | publishConfirm _ => false
  | _ => true

/-- The message of a request, whatever the counters and the clock answered. -/
def OfRequest (uid : String) (request : SendMessageReq) (msg : InternalMessage) : Prop :=
  ∃ session_seq id ms, msg.message = message_of uid request session_seq id ms

section Rule

variable {τ : Type} {C : Contract PipeOp PipeOp.Res τ} {t : τ} {cfg : TransmiteConfig}
  {uid ssid rid : String} {request : SendMessageReq}

theorem err_response_quiet (h : C.Ignores (·.quiet = true)) (k : String) (set : Bool)
    (e : ServiceError) : (err_response cfg k set rid e).Meets C t fun _ _ ↦ True := by
  rw [err_response]
  split
  · exact meets_bind_of_ignores h rfl fun _ ↦ meets_op_of_ignores h rfl fun _ ↦ trivial
  · exact meets_op_of_ignores h rfl fun _ ↦ trivial

theorem publish_failed_quiet (h : C.Ignores (·.quiet = true)) (k m : String) :
    (publish_failed cfg k rid m).Meets C t fun _ _ ↦ True := by
  rw [publish_failed]
  split
  · exact meets_bind_of_ignores h rfl fun _ ↦ meets_op_of_ignores h rfl fun _ ↦ trivial
  · exact meets_op_of_ignores h rfl fun _ ↦ trivial

theorem idempotency_gate_quiet (h : C.Ignores (·.quiet = true)) (cmid : String) :
    (idempotency_gate cfg uid cmid rid).Meets C t fun t' r ↦ r ≠ .answered → t' = t := by
  have hin (k : String) (e : ServiceError) : (err_response cfg k false rid e >>= fun _ ↦
      (Prog.ret .answered : PipeM Gate)).Meets C t fun t' r ↦ r ≠ .answered → t' = t :=
    (err_response_quiet h k false e).bind fun _ _ _ hne ↦ absurd rfl hne
  have hsay (rsp : SendMessageRsp) : (op (reply rsp) >>= fun _ ↦
      (Prog.ret .answered : PipeM Gate)).Meets C t fun t' r ↦ r ≠ .answered → t' = t :=
    meets_bind_of_ignores h rfl fun _ hne ↦ absurd rfl hne
  rw [idempotency_gate]
  split
  · exact fun _ ↦ rfl
  · refine meets_bind_of_ignores h rfl fun r ↦ ?_
    rcases r with ⟨_ | _⟩ | _
    · refine meets_bind_of_ignores h rfl fun r ↦ ?_
      rcases r with cached | _
      · dsimp only
        split
        · exact meets_bind_of_ignores h rfl fun _ ↦ hsay _
        · split
          · refine meets_bind_of_ignores h rfl fun _ ↦ meets_bind_of_ignores h rfl fun r ↦ ?_
            rcases r with ⟨_ | _⟩ | _
            · exact hin _ _
            · exact fun _ ↦ rfl
            · exact fun _ ↦ rfl
          · refine meets_bind_of_ignores h rfl fun m ↦ ?_
            cases m with
            | none => exact hin _ _
            | some m => exact hsay _
      · exact fun _ ↦ rfl
    · exact fun _ ↦ rfl
    · exact fun _ ↦ rfl

theorem assemble_quiet (h : C.Ignores (·.quiet = true)) (members : List String) :
    (assemble uid request members).Meets C t fun t' r ↦ ∀ msg, r = .proceed msg →
      t' = t ∧ OfRequest uid request msg ∧ msg.member_id_list = members := by
  refine meets_bind_of_ignores h rfl fun session_seq ↦ ?_
  split
  · rintro _ ⟨⟩
  · refine meets_bind_of_ignores h rfl fun r ↦ ?_
    cases r with
    | thrown => rintro _ ⟨⟩
    | ok id =>
      refine meets_bind_of_ignores h rfl fun ms ↦ ?_
      dsimp only
      split
      · rintro _ ⟨⟩
        exact ⟨rfl, ⟨session_seq, id, ms, rfl⟩, rfl⟩
      · refine meets_bind_of_ignores h rfl fun seqs ↦ ?_
        split
        · rintro _ ⟨⟩
        · rintro _ ⟨⟩
          exact ⟨rfl, ⟨session_seq, id, ms, rfl⟩, rfl⟩

/-- The answer that is returned is the last one. -/
theorem resolve_members_retry_last (hresolve : ∀ t, C.allowed t (resolveMembers ssid)) (n : ℕ) :
    (resolve_members_retry ssid n).Meets C t fun t' r ↦
      ∃ t₀, t' = C.next t₀ (resolveMembers ssid) r := by
  induction n generalizing t with
  | zero => exact ⟨hresolve t, fun r _ ↦ ⟨t, rfl⟩⟩
  | succ n ih =>
    refine meets_op_bind.2 ⟨hresolve t, fun r _ ↦ ?_⟩
    cases r with
    | thrown => exact ⟨t, rfl⟩
    | ok r =>
      dsimp only
      split
      · exact ⟨t, rfl⟩
      · exact ih

/-- Whoever is let in is among the members that have been looked up last. -/
theorem admission_last (h : C.Ignores (·.quiet = true))
    (hresolve : ∀ t, C.allowed t (resolveMembers ssid)) :
    (admission cfg uid ssid).Meets C t fun t' r ↦ ∀ members, r = .proceed members →
      ∃ t₀ result, t' = C.next t₀ (resolveMembers ssid) (.ok result) ∧
        result.members = members ∧ uid ∈ members := by
  have hstage (t : τ) : (resolve_stage uid ssid).Meets C t fun t' r ↦
      ∀ members, r = .proceed members →
        ∃ t₀ result, t' = C.next t₀ (resolveMembers ssid) (.ok result) ∧
          result.members = members ∧ uid ∈ members := by
    refine meets_bind_of_ignores h rfl fun r ↦ ?_
    rcases r with ⟨_ | _⟩ | _
    · rintro _ ⟨⟩
    · refine (resolve_members_retry_last hresolve 2).bind fun t' r ht' ↦ ?_
      obtain ⟨t₀, rfl⟩ := ht'
      cases r with
      | thrown => rintro _ ⟨⟩
      | ok result =>
        dsimp only
        split
        · rintro _ ⟨⟩
        · split
          · rintro _ ⟨⟩
          · next hmem =>
            rintro _ ⟨⟩
            exact ⟨t₀, result, rfl, rfl, by simpa using hmem⟩
    · rintro _ ⟨⟩
  rw [admission]
  split
  · refine meets_bind_of_ignores h rfl fun r ↦ ?_
    cases r with
    | false => rintro _ ⟨⟩
    | true =>
      refine meets_bind_of_ignores h rfl fun r ↦ ?_
      cases r with
      | false => rintro _ ⟨⟩
      | true => exact hstage t
  · exact hstage t

theorem publish_meets_of_ignores (h : C.Ignores (·.quiet = true)) (k : String)
    {msg : InternalMessage} (hmsg : C.allowed t (publishConfirm msg)) :
    (publish cfg k rid msg).Meets C t fun _ _ ↦ True := by
  refine meets_op_bind.2 ⟨hmsg, fun r _ ↦ ?_⟩
  cases r with
  | thrown => exact publish_failed_quiet h _ _
  | ok =>
    refine meets_bind_of_ignores h rfl fun st ↦ ?_
    cases st with
    | Acked =>
      dsimp only
      split
      · exact meets_bind_of_ignores h rfl fun _ ↦ meets_op_of_ignores h rfl fun _ ↦ trivial
      · exact meets_op_of_ignores h rfl fun _ ↦ trivial
    | Nacked | Lost | Error => exact publish_failed_quiet h _ _

/-- **The rule**: the members may be looked up always, and a message of the request may be published
after its sender has been found among the members. -/
theorem sendMessage_meets_of_ignores (h : C.Ignores (·.quiet = true))
    (hresolve : ∀ t, C.allowed t (resolveMembers request.conversation_id))
    (hpublish : ∀ t result msg, uid ∈ result.members → OfRequest uid request msg →
      msg.member_id_list = result.members →
      C.allowed (C.next t (resolveMembers request.conversation_id) (.ok result))
        (publishConfirm msg)) :
    (SendMessage cfg (.ok uid) request).Meets C t fun _ _ ↦ True := by
  unfold SendMessage
  dsimp only
  split
  · exact err_response_quiet h _ _ _
  · refine (idempotency_gate_quiet h _).bind fun _ r ht ↦ ?_
    cases r with
    | answered => trivial
    | proceed own =>
      refine (admission_last h hresolve).bind fun t' r hr ↦ ?_
      cases r with
      | thrown => exact meets_op_of_ignores h rfl fun _ ↦ trivial
      | reject e => exact err_response_quiet h _ _ _
      | proceed members =>
        obtain ⟨t₀, result, rfl, rfl, hmem⟩ := hr members rfl
        refine (assemble_quiet h _).bind fun t' r hr ↦ ?_
        cases r with
        | thrown => exact meets_op_of_ignores h rfl fun _ ↦ trivial
        | reject e => exact err_response_quiet h _ _ _
        | proceed msg =>
          obtain ⟨rfl, hof, hlist⟩ := hr msg rfl
          exact publish_meets_of_ignores h _ (hpublish t₀ result msg hmem hof hlist)

end Rule

end ChatNow
