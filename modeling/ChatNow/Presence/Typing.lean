import ChatNow.Common.Uuid
import ChatNow.Conversation.Handlers
import ChatNow.Lib.Delimited
import ChatNow.Presence.Subscriptions
import Mathlib.Data.Sym.Sym2

/-!
# Who is told of typing

The id of a private conversation is built from its two users, by the conversation service, and taken
apart again by the presence service: `SendTyping` tells the other one of the two, whom it reads from
the id that the client has sent. The builder sorts the users and puts underscores around the first;
the reader cuts at the second underscore. No id of a user has an underscore in it.

* `SendTyping`: the handler, with the sets that it keeps in Redis and the push.
* `private_ids`: the builder and the reader agree, for every two users and every caller.
-/

namespace ChatNow.Presence

/-! ### `SendTyping` -/

/-- `TypingReq`. -/
structure TypingReq where
  request_id : String := ""
  conversation_id : String := ""
  is_typing : Bool := false
  deriving DecidableEq

/-- `PushToUserReq` with the `typing` alternative, which `SendTyping` fills. -/
structure TypingPush where
  /-- The user to whom the notification goes. -/
  target : String
  user_id : String
  conversation_id : String
  is_typing : Bool
  deriving DecidableEq

/-- The sets of those who type, and when their keys expire. -/
structure TypingSets where
  sets : Sets := fun _ ↦ ∅
  ttl : String → Option ℕ := fun _ ↦ none

/-- `EXPIRE`. -/
def TypingSets.expire (db : TypingSets) (key : String) (seconds : ℕ) : TypingSets :=
  if db.sets key = ∅ then db else { db with ttl := Function.update db.ttl key (some seconds) }

/-- `std::string::substr`. -/
def substr (s : List Char) (pos n : ℕ) : List Char := (s.drop pos).take n

/-- `find` of a character from a position on. -/
def find (s : List Char) (c : Char) (pos : ℕ) : Option ℕ :=
  ((s.drop pos).findIdx? fun a ↦ decide (a = c)).map (pos + ·)

/-- The user whom `SendTyping` tells, if there is one. -/
def typing_target (conv_id user_id : String) : Option String :=
  let id := conv_id.toList
  if id.length < 2 ∨ id[0]? ≠ some 'p' ∨ id[1]? ≠ some '_' then none
  else
    match find id '_' 2 with
    | none => none
    | some pos =>
      let lo := String.ofList (substr id 2 (pos - 2))
      let hi := String.ofList (id.drop (pos + 1))
      if lo ≠ user_id ∧ hi ≠ user_id then none
      else some (if lo = user_id then hi else lo)

def typing_key (conv_id : String) : String := "im:presence:typing:" ++ conv_id

/-- What `SendTyping` does to the sets, at the time and with the lifetime drawn. -/
def write_typing (user_id : String) (now_ms seconds : ℕ) (req : TypingReq) (db : TypingSets) :
    TypingSets :=
  let key := typing_key req.conversation_id
  if req.is_typing then
    { db with sets := sadd db.sets key (user_id ++ ":" ++ toString now_ms) }.expire key seconds
  else
    let gone := (db.sets key).filter fun m ↦ (user_id ++ ":").toList.isPrefixOf m.toList
    { db with sets := Function.update db.sets key (db.sets key \ gone) }

/-- `SendTyping`, for a user whom the metadata names; `channel` says whether an instance of the push
service is known. -/
def SendTyping (user_id : String) (now_ms seconds : ℕ) (channel : Bool) (req : TypingReq)
    (db : TypingSets) : TypingSets × Option TypingPush :=
  (write_typing user_id now_ms seconds req db,
    match typing_target req.conversation_id user_id with
    | none => none
    | some target =>
      if channel then some ⟨target, user_id, req.conversation_id, req.is_typing⟩ else none)

/-- Nobody else is told than the one whom the id names. -/
theorem SendTyping_target {user_id : String} {now_ms seconds : ℕ} {req : TypingReq}
    {db : TypingSets} :
    (SendTyping user_id now_ms seconds true req db).2.map (·.target) =
      typing_target req.conversation_id user_id := by
  rw [SendTyping]
  cases typing_target req.conversation_id user_id <;> rfl

/-! ### Ids of private conversations -/

section PrivateIds

variable {lo hi a b c d caller : String}

/-- The reader, on an id that is put together from two users. -/
theorem typing_target_join (hlo : '_' ∉ lo.toList) :
    typing_target ("p_" ++ lo ++ "_" ++ hi) caller =
      if lo ≠ caller ∧ hi ≠ caller then none else some (if lo = caller then hi else lo) := by
  have hid : ("p_" ++ lo ++ "_" ++ hi).toList = 'p' :: '_' :: (lo.toList ++ '_' :: hi.toList) := by
    simp
  have hfind : find ('p' :: '_' :: (lo.toList ++ '_' :: hi.toList)) '_' 2 =
      some (2 + lo.toList.length) := by
    rw [find, List.drop_succ_cons, List.drop_succ_cons, List.drop_zero,
      Delimited.find_append_cons hlo]
    rfl
  have hbefore : substr ('p' :: '_' :: (lo.toList ++ '_' :: hi.toList)) 2
      (2 + lo.toList.length - 2) = lo.toList := by
    rw [substr, Nat.add_sub_cancel_left, List.drop_succ_cons, List.drop_succ_cons, List.drop_zero,
      List.take_left]
  have hafter : ('p' :: '_' :: (lo.toList ++ '_' :: hi.toList)).drop (2 + lo.toList.length + 1) =
      hi.toList := by
    rw [show 2 + lo.toList.length + 1 = lo.toList.length + 1 + 1 + 1 by omega, List.drop_succ_cons,
      List.drop_succ_cons, List.drop_append, List.drop_eq_nil_of_le (by omega), List.nil_append,
      Nat.add_sub_cancel_left, List.drop_succ_cons, List.drop_zero]
  rw [typing_target, hid]
  simp only [hfind, hbefore, hafter, String.ofList_toList]
  exact if_neg (by simp)

theorem private_id_of_comm (a b : String) : private_id_of_ a b = private_id_of_ b a := by
  rw [private_id_of_, private_id_of_]
  by_cases hab : a < b
  · have hba : ¬b < a := fun h ↦ String.lt_asymm hab h
    simp only [if_pos hab, if_neg hba]
  · by_cases hba : b < a
    · simp only [if_pos hba, if_neg hab]
    · have heq : a = b := String.le_antisymm (String.not_lt.1 hba) (String.not_lt.1 hab)
      rw [heq]

/-- The two users in order. -/
theorem private_id_of_cases (a b : String) :
    private_id_of_ a b = "p_" ++ a ++ "_" ++ b ∨ private_id_of_ a b = "p_" ++ b ++ "_" ++ a := by
  rw [private_id_of_]
  by_cases h : a < b
  · exact .inl (by simp only [if_pos h])
  · exact .inr (by simp only [if_neg h])

theorem join_inj (ha : '_' ∉ a.toList) (hc : '_' ∉ c.toList)
    (h : "p_" ++ a ++ "_" ++ b = "p_" ++ c ++ "_" ++ d) : a = c ∧ b = d := by
  have hlist : a.toList ++ '_' :: b.toList = c.toList ++ '_' :: d.toList := by
    simpa using congrArg String.toList h
  obtain ⟨hac, hbd⟩ := (Delimited.append_cons_inj ha hc).1 hlist
  exact ⟨String.toList_inj.1 hac, String.toList_inj.1 hbd⟩

theorem private_id_of_inj (ha : '_' ∉ a.toList) (hb : '_' ∉ b.toList) (hc : '_' ∉ c.toList)
    (hd : '_' ∉ d.toList) (h : private_id_of_ a b = private_id_of_ c d) : s(a, b) = s(c, d) := by
  rw [Sym2.eq_iff]
  rcases private_id_of_cases a b with hab | hab <;>
    rcases private_id_of_cases c d with hcd | hcd <;> rw [hab, hcd] at h
  · exact .inl (join_inj ha hc h)
  · exact .inr (join_inj ha hd h)
  · exact .inr (join_inj hb hc h).symm
  · exact .inl (join_inj hb hd h).symm

/-- The reader gives the other one of the two, and nobody to a stranger. -/
theorem typing_target_private (ha : '_' ∉ a.toList) (hb : '_' ∉ b.toList) :
    typing_target (private_id_of_ a b) caller =
      if caller = a then some b else if caller = b then some a else none := by
  rcases private_id_of_cases a b with hab | hab
  · rw [hab, typing_target_join ha]
    grind
  · rw [hab, typing_target_join hb]
    grind

end PrivateIds

/-- **Ids of private conversations**: the builder does not look at the order of the two users and
tells every two from every other two and from every group; and `SendTyping` takes the id apart
again, whoever calls. -/
theorem private_ids {a b : String} (ha : '_' ∉ a.toList) (hb : '_' ∉ b.toList) :
    private_id_of_ a b = private_id_of_ b a ∧
    (∀ c d : String, '_' ∉ c.toList → '_' ∉ d.toList → private_id_of_ a b = private_id_of_ c d →
      s(a, b) = s(c, d)) ∧
    (∀ id, private_id_of_ a b ≠ "g_" ++ id) ∧
    typing_target (private_id_of_ a b) a = some b ∧
    typing_target (private_id_of_ a b) b = some a ∧
    ∀ caller, caller ≠ a → caller ≠ b → typing_target (private_id_of_ a b) caller = none := by
  refine ⟨private_id_of_comm a b, fun c d hc hd ↦ private_id_of_inj ha hb hc hd, fun id h ↦ ?_,
    ?_, ?_, fun caller hca hcb ↦ ?_⟩
  · have hlist := congrArg String.toList h
    rcases private_id_of_cases a b with hab | hab <;>
    · rw [hab] at hlist
      simp at hlist
  · rw [typing_target_private ha hb, if_pos rfl]
  · rw [typing_target_private ha hb]
    by_cases hba : b = a
    · rw [if_pos hba, hba]
    · rw [if_neg hba, if_pos rfl]
  · rw [typing_target_private ha hb, if_neg hca, if_neg hcb]

theorem private_ids_uuid :
    typing_target "p_0a1b-2c3d4e5f-0001_9a1b-2c3d4e5f-0002" "9a1b-2c3d4e5f-0002" =
      some "0a1b-2c3d4e5f-0001" :=
  (private_ids (a := "9a1b-2c3d4e5f-0002") (b := "0a1b-2c3d4e5f-0001") (by decide)
    (by decide)).2.2.2.1

end ChatNow.Presence
