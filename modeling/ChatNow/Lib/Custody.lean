import Mathlib.Data.List.Nodup
import Mathlib.Data.List.Perm.Subperm
import Mathlib.Logic.Function.Basic
import Mathlib.Logic.Relation

/-!
# Tokens that change hands

A **token** is issued to a place, moves from place to place, is used where it is, and is settled
where it is. Some uses call for a settlement (`owed`), which is then made at once; a token that is
dropped is settled in a way of its own (`dropped`).

`Custody.Sound` is what every history of such steps keeps. So a token is never used after it has
been settled, every use that calls for a settlement has got it, and when no place has a token any
more each one that was issued has been settled exactly once (`Custody.Sound.perm`).

Nothing here depends on what tokens, uses and settlements are.
-/

namespace Custody

/-- What is recorded of a token. -/
inductive Entry (τ υ β : Type)
  | used (t : τ) (u : υ)
  | settled (t : τ) (b : β)
  deriving DecidableEq

/-- The token and the way of a settlement. -/
def Entry.settlement {τ υ β : Type} : Entry τ υ β → Option (τ × β)
  | .used _ _ => none
  | .settled t b => some (t, b)

end Custody

/-- Places with tokens. -/
structure Custody (π τ υ β : Type) where
  /-- The token that a place has. -/
  held : π → Option τ := fun _ ↦ none
  /-- The tokens that have been issued. -/
  issued : List τ := []
  /-- What has become of them, the last entry first. -/
  log : List (Custody.Entry τ υ β) := []

namespace Custody

variable {π τ υ β : Type} [DecidableEq π] (owed : υ → Option β) (dropped : β)

/-- The settlements that have been made. -/
def settlements (c : Custody π τ υ β) : List (τ × β) := c.log.filterMap Entry.settlement

/-- A step. -/
inductive Step : Custody π τ υ β → Custody π τ υ β → Prop
  | issue {c : Custody π τ υ β} {a : π} {t : τ} (ha : c.held a = none) (ht : t ∉ c.issued) :
      Step c { c with held := Function.update c.held a (some t), issued := t :: c.issued }
  | use {c : Custody π τ υ β} {a : π} {t : τ} {u : υ} (ha : c.held a = some t)
      (hu : owed u = none) : Step c { c with log := .used t u :: c.log }
  | finish {c : Custody π τ υ β} {a : π} {t : τ} {u : υ} {b : β} (ha : c.held a = some t)
      (hu : owed u = some b) :
      Step c { c with held := Function.update c.held a none
                      log := .settled t b :: .used t u :: c.log }
  | drop {c : Custody π τ υ β} {a : π} {t : τ} (ha : c.held a = some t) :
      Step c { c with held := Function.update c.held a none, log := .settled t dropped :: c.log }
  | move {c : Custody π τ υ β} {a a' : π} {t : τ} (ha : c.held a = some t)
      (ha' : c.held a' = none) :
      Step c { c with held := Function.update (Function.update c.held a none) a' (some t) }

/-- No use comes after the settlement; the last entry is the first of the list. -/
def Ordered (log : List (Entry τ υ β)) : Prop :=
  ∀ later earlier t u, log = later ++ .used t u :: earlier → ∀ b, .settled t b ∉ earlier

/-- What every history keeps. -/
structure Sound (c : Custody π τ υ β) : Prop where
  nodup : c.issued.Nodup
  /-- Nobody else has a token. -/
  unique : ∀ {a a' t}, c.held a = some t → c.held a' = some t → a = a'
  /-- A token that is held has been issued, and not settled. -/
  live : ∀ {a t}, c.held a = some t → t ∈ c.issued ∧ ∀ b, .settled t b ∉ c.log
  once : (c.settlements.map Prod.fst).Nodup
  known : ∀ {t b}, .settled t b ∈ c.log → t ∈ c.issued
  covered : ∀ t ∈ c.issued, (∃ a, c.held a = some t) ∨ ∃ b, .settled t b ∈ c.log
  order : Ordered c.log
  paid : ∀ {t u b}, .used t u ∈ c.log → owed u = some b → .settled t b ∈ c.log
  cause : ∀ {t b}, .settled t b ∈ c.log →
    b = dropped ∨ ∃ u, .used t u ∈ c.log ∧ owed u = some b

variable {owed dropped} {c c' : Custody π τ υ β} {a : π} {t : τ} {u : υ} {b : β}
  {log : List (Entry τ υ β)}

/-! ### The record -/

theorem Ordered.cons_settled (h : Ordered log) : Ordered (.settled t b :: log) := by
  intro later earlier t' u heq
  rcases List.cons_eq_append_iff.1 heq with ⟨-, hhead⟩ | ⟨later', -, htail⟩
  · cases hhead
  · exact h later' earlier t' u htail

theorem Ordered.cons_used (h : Ordered log) (ht : ∀ b, .settled t b ∉ log) :
    Ordered (.used t u :: log) := by
  intro later earlier t' u' heq
  rcases List.cons_eq_append_iff.1 heq with ⟨-, hhead⟩ | ⟨later', -, htail⟩
  · obtain ⟨hused, rfl⟩ := List.cons.inj hhead
    obtain ⟨rfl, rfl⟩ := Entry.used.inj hused
    exact ht
  · exact h later' earlier t' u' htail

omit [DecidableEq π] in
theorem mem_settlements : (t, b) ∈ c.settlements ↔ .settled t b ∈ c.log := by
  rw [settlements, List.mem_filterMap]
  constructor
  · rintro ⟨e, he, heq⟩
    cases e with
    | used t' u => cases heq
    | settled t' b' =>
      obtain ⟨rfl, rfl⟩ := Prod.mk.inj (Option.some.inj heq)
      exact he
  · exact fun h ↦ ⟨_, h, rfl⟩

omit [DecidableEq π] in
theorem mem_map_settlements : t ∈ c.settlements.map Prod.fst ↔ ∃ b, .settled t b ∈ c.log := by
  constructor
  · intro h
    obtain ⟨⟨t', b⟩, hmem, rfl⟩ := List.mem_map.1 h
    exact ⟨b, mem_settlements.1 hmem⟩
  · rintro ⟨b, h⟩
    exact List.mem_map.2 ⟨(t, b), mem_settlements.2 h, rfl⟩

namespace Sound

omit [DecidableEq π] in
/-- **A token is settled in one way.** -/
theorem settled_eq {b' : β} (h : Sound owed dropped c) (hb : .settled t b ∈ c.log)
    (hb' : .settled t b' ∈ c.log) : b = b' :=
  congrArg Prod.snd (List.inj_on_of_nodup_map h.once (mem_settlements.2 hb)
    (mem_settlements.2 hb') rfl)

omit [DecidableEq π] in
/-- **When no place has a token**, each of them has been settled exactly once. -/
theorem perm (h : Sound owed dropped c) (hnone : ∀ a, c.held a = none) :
    (c.settlements.map Prod.fst).Perm c.issued := by
  refine (List.perm_ext_iff_of_nodup h.once h.nodup).2 fun t ↦ ⟨fun ht ↦ ?_, fun ht ↦ ?_⟩
  · obtain ⟨b, hb⟩ := mem_map_settlements.1 ht
    exact h.known hb
  · rcases h.covered t ht with ⟨a, ha⟩ | hsettled
    · rw [hnone] at ha
      cases ha
    · exact mem_map_settlements.2 hsettled

/-! ### Histories -/

omit [DecidableEq π] in
theorem empty : Sound owed dropped ({} : Custody π τ υ β) where
  nodup := List.nodup_nil
  unique ha := by cases ha
  live ha := by cases ha
  once := List.nodup_nil
  known hb := by cases hb
  covered _ ht := by cases ht
  order later earlier t u heq := by simp at heq
  paid hu := by cases hu
  cause hb := by cases hb

/-- Another token is held where there was none. -/
theorem held_issue {t' : τ} {x : π} (hx : Function.update c.held a (some t) x = some t') :
    x = a ∧ t' = t ∨ x ≠ a ∧ c.held x = some t' := by
  rcases eq_or_ne x a with rfl | hne
  · rw [Function.update_self] at hx
    exact .inl ⟨rfl, (Option.some.inj hx).symm⟩
  · rw [Function.update_of_ne hne] at hx
    exact .inr ⟨hne, hx⟩

theorem issue (h : Sound owed dropped c) (ha : c.held a = none) (ht : t ∉ c.issued) :
    Sound owed dropped
      { c with held := Function.update c.held a (some t), issued := t :: c.issued } where
  nodup := List.nodup_cons.2 ⟨ht, h.nodup⟩
  unique hx hx' := by
    rcases held_issue hx with ⟨rfl, rfl⟩ | ⟨-, hheld⟩ <;>
      rcases held_issue hx' with ⟨rfl, heq⟩ | ⟨-, hheld'⟩
    · rfl
    · exact absurd (h.live hheld').1 ht
    · exact absurd (h.live (heq ▸ hheld)).1 ht
    · exact h.unique hheld hheld'
  live hx := by
    rcases held_issue hx with ⟨-, rfl⟩ | ⟨-, hheld⟩
    · exact ⟨List.mem_cons_self, fun b hb ↦ ht (h.known hb)⟩
    · exact ⟨List.mem_cons_of_mem _ (h.live hheld).1, (h.live hheld).2⟩
  once := h.once
  known hb := List.mem_cons_of_mem _ (h.known hb)
  covered t' ht' := by
    rcases List.mem_cons.1 ht' with rfl | ht'
    · exact .inl ⟨a, Function.update_self ..⟩
    · refine (h.covered t' ht').imp_left fun ⟨x, hx⟩ ↦ ⟨x, ?_⟩
      have hne : x ≠ a := by
        rintro rfl
        rw [ha] at hx
        cases hx
      exact (Function.update_of_ne hne ..).trans hx
  order := h.order
  paid := h.paid
  cause := h.cause

omit [DecidableEq π] in
theorem use (h : Sound owed dropped c) (ha : c.held a = some t) (hu : owed u = none) :
    Sound owed dropped { c with log := .used t u :: c.log } where
  nodup := h.nodup
  unique := h.unique
  live hx := ⟨(h.live hx).1, fun b hb ↦ (h.live hx).2 b (by simpa using hb)⟩
  once := h.once
  known hb := h.known (by simpa using hb)
  covered t' ht' := (h.covered t' ht').imp_right fun ⟨b, hb⟩ ↦ ⟨b, List.mem_cons_of_mem _ hb⟩
  order := h.order.cons_used (h.live ha).2
  paid hmem hb := by
    rcases List.mem_cons.1 hmem with heq | hmem
    · obtain ⟨-, rfl⟩ := Entry.used.inj heq
      rw [hu] at hb
      cases hb
    · exact List.mem_cons_of_mem _ (h.paid hmem hb)
  cause hb := (h.cause (by simpa using hb)).imp_right fun ⟨u', hmem, hu'⟩ ↦
    ⟨u', List.mem_cons_of_mem _ hmem, hu'⟩

/-- What is left when a token is gone. -/
theorem held_settle (h : Sound owed dropped c) (ha : c.held a = some t) {t' : τ} {x : π}
    (hx : Function.update c.held a none x = some t') : c.held x = some t' ∧ t' ≠ t := by
  rcases eq_or_ne x a with rfl | hne
  · rw [Function.update_self] at hx
    cases hx
  · rw [Function.update_of_ne hne] at hx
    refine ⟨hx, ?_⟩
    rintro rfl
    exact hne (h.unique hx ha)

/-- A settlement, with the use that has called for it, if there is one. -/
theorem settle (h : Sound owed dropped c) (ha : c.held a = some t) {us : List (Entry τ υ β)}
    (hus : us = [] ∧ b = dropped ∨ ∃ u, us = [.used t u] ∧ owed u = some b) :
    Sound owed dropped { c with held := Function.update c.held a none
                                log := .settled t b :: (us ++ c.log) } := by
  have hsettled : ∀ {t' b'}, .settled t' b' ∈ us ++ c.log ↔ .settled t' b' ∈ c.log := by
    rcases hus with ⟨rfl, -⟩ | ⟨u, rfl, -⟩ <;> simp
  have hset : ∀ {t' b'}, Entry.settled t' b' ∈ Entry.settled t b :: (us ++ c.log) →
      t' = t ∧ b' = b ∨ .settled t' b' ∈ c.log := fun hmem ↦ by
    rcases List.mem_cons.1 hmem with heq | hmem
    · exact .inl (Entry.settled.inj heq)
    · exact .inr (hsettled.1 hmem)
  have hlive := (h.live ha).2
  refine ⟨h.nodup, fun hx hx' ↦ h.unique (held_settle h ha hx).1 (held_settle h ha hx').1,
    fun hx ↦ ?_, ?_, fun hb ↦ ?_, fun t' ht' ↦ ?_, ?_, fun hmem hb ↦ ?_, fun hb ↦ ?_⟩
  · obtain ⟨hheld, hne⟩ := held_settle h ha hx
    refine ⟨(h.live hheld).1, fun b' hb' ↦ ?_⟩
    rcases hset hb' with ⟨heq, -⟩ | hb'
    · exact hne heq
    · exact (h.live hheld).2 b' hb'
  · have hsame : (us ++ c.log).filterMap Entry.settlement = c.settlements := by
      rcases hus with ⟨rfl, -⟩ | ⟨u, rfl, -⟩ <;> rfl
    show (((t, b) :: (us ++ c.log).filterMap Entry.settlement).map Prod.fst).Nodup
    rw [hsame]
    refine List.nodup_cons.2 ⟨fun hmem ↦ ?_, h.once⟩
    obtain ⟨b', hb'⟩ := mem_map_settlements.1 hmem
    exact hlive b' hb'
  · rcases hset hb with ⟨rfl, -⟩ | hb
    · exact (h.live ha).1
    · exact h.known hb
  · rcases h.covered t' ht' with ⟨x, hx⟩ | ⟨b', hb'⟩
    · rcases eq_or_ne x a with rfl | hne
      · obtain rfl := Option.some.inj (ha.symm.trans hx)
        exact .inr ⟨b, List.mem_cons_self⟩
      · exact .inl ⟨x, (Function.update_of_ne hne ..).trans hx⟩
    · exact .inr ⟨b', List.mem_cons_of_mem _ (hsettled.2 hb')⟩
  · rcases hus with ⟨rfl, -⟩ | ⟨u, rfl, -⟩
    · exact h.order.cons_settled
    · exact (h.order.cons_used hlive).cons_settled
  · rcases hus with ⟨rfl, -⟩ | ⟨u, rfl, hu⟩
    · exact List.mem_cons_of_mem _ (h.paid (by simpa using hmem) hb)
    · rcases List.mem_cons.1 hmem with heq | hmem
      · cases heq
      rcases List.mem_cons.1 hmem with heq | hmem
      · obtain ⟨rfl, rfl⟩ := Entry.used.inj heq
        obtain rfl := Option.some.inj (hb.symm.trans hu)
        exact List.mem_cons_self
      · exact List.mem_cons_of_mem _ (List.mem_cons_of_mem _ (h.paid hmem hb))
  · rcases hset hb with ⟨rfl, rfl⟩ | hb
    · rcases hus with ⟨-, hdropped⟩ | ⟨u, rfl, hu⟩
      · exact .inl hdropped
      · exact .inr ⟨u, by simp, hu⟩
    · exact (h.cause hb).imp_right fun ⟨u', hmem, hu'⟩ ↦ ⟨u', by simp [hmem], hu'⟩

theorem move (h : Sound owed dropped c) {a' : π} (ha : c.held a = some t) (ha' : c.held a' = none) :
    Sound owed dropped
      { c with held := Function.update (Function.update c.held a none) a' (some t) } := by
  have hmoved : ∀ {x t'}, Function.update (Function.update c.held a none) a' (some t) x = some t' →
      x = a' ∧ t' = t ∨ c.held x = some t' ∧ t' ≠ t := fun {x t'} hx ↦ by
    rcases eq_or_ne x a' with rfl | hne
    · rw [Function.update_self] at hx
      exact .inl ⟨rfl, (Option.some.inj hx).symm⟩
    · rw [Function.update_of_ne hne] at hx
      exact .inr (held_settle h ha hx)
  refine ⟨h.nodup, fun hx hx' ↦ ?_, fun hx ↦ ?_, h.once, h.known, fun t' ht' ↦ ?_, h.order, h.paid,
    h.cause⟩
  · rcases hmoved hx with ⟨rfl, rfl⟩ | ⟨hheld, hne⟩ <;>
      rcases hmoved hx' with ⟨rfl, heq⟩ | ⟨hheld', hne'⟩
    · rfl
    · exact absurd rfl hne'
    · exact absurd heq hne
    · exact h.unique hheld hheld'
  · rcases hmoved hx with ⟨-, rfl⟩ | ⟨hheld, -⟩
    · exact h.live ha
    · exact h.live hheld
  · refine (h.covered t' ht').imp_left fun ⟨x, hx⟩ ↦ ?_
    rcases eq_or_ne x a with rfl | hne
    · obtain rfl := Option.some.inj (ha.symm.trans hx)
      exact ⟨a', Function.update_self ..⟩
    · have hne' : x ≠ a' := by
        rintro rfl
        rw [ha'] at hx
        cases hx
      exact ⟨x, (Function.update_of_ne hne' ..).trans ((Function.update_of_ne hne ..).trans hx)⟩

/-- **A step** keeps it. -/
theorem step (h : Sound owed dropped c) (hs : Step owed dropped c c') : Sound owed dropped c' := by
  cases hs with
  | issue ha ht => exact h.issue ha ht
  | use ha hu => exact h.use ha hu
  | finish ha hu => exact h.settle ha (.inr ⟨_, rfl, hu⟩)
  | drop ha => exact h.settle ha (.inl ⟨rfl, rfl⟩)
  | move ha ha' => exact h.move ha ha'

/-- **A history** keeps it. -/
theorem reach (hs : Relation.ReflTransGen (Step owed dropped) {} c) : Sound owed dropped c := by
  induction hs with
  | refl => exact empty
  | tail _ hs ih => exact ih.step hs

end Sound

end Custody
