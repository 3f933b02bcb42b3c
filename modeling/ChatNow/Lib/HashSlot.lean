import ChatNow.Lib.Delimited

/-!
# Hash slots

The keys of a cluster are spread over slots by a hash. A key may carry a **tag**, a text between an
opening and a closing bracket, and then the tag is hashed in place of the key, so that keys with one
tag are in one slot. The tag is what stands between the first opening bracket and the next closing
one; an empty one does not count.

Whether keys are in one slot by their tags, and not by the accident of a hash, is `OneSlot`.
-/

namespace HashSlot

variable {α : Type*} [DecidableEq α] (opening closing : α)

/-- The part of a key that is hashed. -/
def hashed (key : List α) : List α :=
  match key.dropWhile (· ≠ opening) with
  | [] => key
  | _ :: body =>
    if closing ∈ body ∧ Delimited.before closing body ≠ [] then Delimited.before closing body
    else key

/-- The slot of a key. -/
def slot (hash : List α → ℕ) (slots : ℕ) (key : List α) : ℕ :=
  hash (hashed opening closing key) % slots

/-- The keys are in one slot, whatever the hash. -/
def OneSlot (slots : ℕ) (keys : List (List α)) : Prop :=
  ∀ hash : List α → ℕ, ∀ k ∈ keys, ∀ k' ∈ keys,
    slot opening closing hash slots k = slot opening closing hash slots k'

variable {opening closing} {slots : ℕ} {keys : List (List α)} {pre id rest : List α}

/-- A key that brackets an id behind a prefix. The tag is the id up to a closing bracket of its
own. -/
theorem hashed_bracketed (hpre : opening ∉ pre) :
    hashed opening closing (pre ++ opening :: (id ++ closing :: rest)) =
      if Delimited.before closing id = [] then pre ++ opening :: (id ++ closing :: rest)
      else Delimited.before closing id := by
  have hskip : ∀ a ∈ pre, decide (a ≠ opening) = true := fun a ha ↦
    decide_eq_true fun heq ↦ hpre (heq ▸ ha)
  have hdrop : (pre ++ opening :: (id ++ closing :: rest)).dropWhile (· ≠ opening) =
      opening :: (id ++ closing :: rest) := by
    rw [List.dropWhile_append_of_pos hskip, List.dropWhile_cons_of_neg (by simp)]
  have hmem : closing ∈ id ++ closing :: rest := List.mem_append_right _ List.mem_cons_self
  rw [hashed, hdrop]
  dsimp only
  rw [Delimited.before_append_sep]
  by_cases hid : Delimited.before closing id = []
  · rw [if_neg fun h ↦ h.2 hid, if_pos hid]
  · rw [if_pos ⟨hmem, hid⟩, if_neg hid]

/-- Keys are in one slot when the same is hashed of them, and else some hash parts them. -/
theorem oneSlot_iff (hslots : 1 < slots) : OneSlot opening closing slots keys ↔
    ∀ k ∈ keys, ∀ k' ∈ keys, hashed opening closing k = hashed opening closing k' := by
  constructor
  · intro h k hk k' hk'
    by_contra hne
    -- The hash that tells one text from all others.
    have heq := h (fun text ↦ if text = hashed opening closing k then 1 else 0) k hk k' hk'
    rw [slot, slot, if_pos rfl, if_neg (Ne.symm hne), Nat.mod_eq_of_lt hslots, Nat.zero_mod] at heq
    exact absurd heq Nat.one_ne_zero
  · intro h hash k hk k' hk'
    rw [slot, slot, h k hk k' hk']

/-- **The keys of one id**, in one slot when the id has something before its first closing
bracket. -/
theorem oneSlot_of_bracketed
    (hkeys : ∀ k ∈ keys, ∃ pre rest, opening ∉ pre ∧ k = pre ++ opening :: (id ++ closing :: rest))
    (hid : Delimited.before closing id ≠ []) : OneSlot opening closing slots keys := by
  have hhashed : ∀ k ∈ keys, hashed opening closing k = Delimited.before closing id := by
    intro k hk
    obtain ⟨pre, rest, hpre, rfl⟩ := hkeys k hk
    rw [hashed_bracketed hpre, if_neg hid]
  intro hash k hk k' hk'
  rw [slot, slot, hhashed k hk, hhashed k' hk']

/-- Two keys at least are in one slot only then. -/
theorem oneSlot_bracketed_iff (hslots : 1 < slots)
    (hkeys : ∀ k ∈ keys, ∃ pre rest, opening ∉ pre ∧ k = pre ++ opening :: (id ++ closing :: rest))
    (htwo : ∃ k ∈ keys, ∃ k' ∈ keys, k ≠ k') :
    OneSlot opening closing slots keys ↔ Delimited.before closing id ≠ [] := by
  refine ⟨fun h hid ↦ ?_, oneSlot_of_bracketed hkeys⟩
  obtain ⟨k, hk, k', hk', hne⟩ := htwo
  have heq := (oneSlot_iff hslots).1 h k hk k' hk'
  obtain ⟨pre, rest, hpre, rfl⟩ := hkeys k hk
  obtain ⟨pre', rest', hpre', rfl⟩ := hkeys k' hk'
  rw [hashed_bracketed hpre, hashed_bracketed hpre', if_pos hid, if_pos hid] at heq
  exact hne heq

end HashSlot
