import ChatNow.Lib.Delimited
import ChatNow.UserInfo.Resolve

/-!
# Keys of the user-info cache

The two keys of a user. Users are spread over 64 buckets, whose number is the tag of the keys, so
that the keys of one bucket can be handed to one script. A key belongs to one user
(`user_info_key_inj`), and no value key is a generation key.
-/

namespace ChatNow

/-- The tag of the keys of a bucket. -/
def bucket_text (uid : String) : String := toString (user_info_bucket uid).toNat

/-- `user_info_key`. -/
def user_info_key (uid : String) : String := "im:user:\x7b" ++ bucket_text uid ++ "\x7d:" ++ uid

/-- `user_info_generation_key`. -/
def user_info_generation_key (uid : String) : String :=
  "im:user-gen:\x7b" ++ bucket_text uid ++ "\x7d:" ++ uid

theorem isDigit_of_mem_bucket_text {uid : String} {c : Char} (h : c ∈ (bucket_text uid).toList) :
    c.isDigit = true := by
  rw [bucket_text, Nat.toString_eq_repr, Nat.toList_repr] at h
  exact Nat.isDigit_of_mem_toDigits (by decide) (by decide) h

theorem brace_notMem_bucket_text (uid : String) : '\x7d' ∉ (bucket_text uid).toList := fun h ↦
  absurd (isDigit_of_mem_bucket_text h) (by decide)

section Inj

variable {uid uid' : String}

theorem user_info_key_inj : user_info_key uid = user_info_key uid' ↔ uid = uid' := by
  refine ⟨fun h ↦ ?_, congrArg _⟩
  have hlist := congrArg String.toList h
  simp only [user_info_key, String.toList_append, List.append_assoc, List.append_cancel_left_eq]
    at hlist
  obtain ⟨-, hrest⟩ := (Delimited.append_cons_inj (brace_notMem_bucket_text uid)
    (brace_notMem_bucket_text uid')).1 hlist
  exact String.toList_inj.1 (List.cons.inj hrest).2

theorem user_info_generation_key_inj :
    user_info_generation_key uid = user_info_generation_key uid' ↔ uid = uid' := by
  refine ⟨fun h ↦ ?_, congrArg _⟩
  have hlist := congrArg String.toList h
  simp only [user_info_generation_key, String.toList_append, List.append_assoc,
    List.append_cancel_left_eq] at hlist
  obtain ⟨-, hrest⟩ := (Delimited.append_cons_inj (brace_notMem_bucket_text uid)
    (brace_notMem_bucket_text uid')).1 hlist
  exact String.toList_inj.1 (List.cons.inj hrest).2

/-- The two kinds of keys are told by the eighth character. -/
theorem user_info_key_ne_generation_key (uid uid' : String) :
    user_info_key uid ≠ user_info_generation_key uid' := by
  intro h
  have hlist := congrArg (fun s : String ↦ s.toList[7]?) h
  simp only [user_info_key, user_info_generation_key, String.toList_append, List.append_assoc]
    at hlist
  rw [List.getElem?_append_left (by decide), List.getElem?_append_left (by decide)] at hlist
  exact absurd hlist (by decide)

end Inj

end ChatNow
