import ChatNow.Lib.Labelled
import Mathlib.Data.List.Perm.Basic
import Mathlib.Logic.Function.Basic

/-!
# The registry of calls in flight

`InflightRegistry` of `common/utils/inflight.hpp`: one mutex for each key that somebody is working
on. Who asks for a key gets a `Guard`, which can be moved and releases the key when it is destroyed
or assigned to; the registry counts the guards and forgets the key with the last one.

A release names the key and not the entry, so that everything rests on who is still allowed to
release: `Owns` says that the entry of a key has the live guards of that key for owners, as many as
it counts and all with its mutex, and that there is none without them. The guards matter up to their
order only, so that a move changes nothing, and every step is one of three: a guard is added, a
guard is released, or a guard is moved.

The objects are a list in the order in which they are constructed; what is destroyed leaves a hole.
There may be any number of registries.
-/

namespace ChatNow.InflightRegistry

/-! ### The registry -/

/-- `Entry`. The mutex is known by the number of its allocation. -/
structure Entry where
  mu : ℕ
  refs : ℕ
  deriving DecidableEq

/-- `_inflight`. -/
abbrev Inflight : Type := String → Option Entry

/-- `Guard`. -/
structure Guard where
  mu : Option ℕ := none
  key : String := ""
  registry : Option ℕ := none
  deriving DecidableEq

/-- The entry of a key after `acquire`, where `fresh` is the mutex that `make_shared` would
create. -/
def acquired (fresh : ℕ) : Option Entry → Entry
  | none => ⟨fresh, 1⟩
  | some e => ⟨e.mu, e.refs + 1⟩

/-- `acquire`, without the guard. -/
def acquire (inflight : Inflight) (fresh : ℕ) (key : String) : Inflight :=
  Function.update inflight key (some (acquired fresh (inflight key)))

/-- The entry of a key after `release`. -/
def released : Option Entry → Option Entry
  | none => none
  | some e => if 1 < e.refs then some ⟨e.mu, e.refs - 1⟩ else none

/-- `release`. -/
def release (inflight : Inflight) (key : String) : Inflight :=
  Function.update inflight key (released (inflight key))

/-! ### Objects -/

/-- The registries and the guards. -/
structure World where
  registries : ℕ → Inflight := fun _ _ ↦ none
  /-- No mutex has this number or one above it. -/
  mutexes : ℕ := 0
  objects : List (Option Guard) := []

/-- What a program does with guards. The text that a move leaves in a string is unspecified. -/
inductive GuardOp
  /-- `acquire`, whose result is constructed in place. -/
  | acquire (registry : ℕ) (key : String)
  /-- The default constructor. -/
  | construct
  /-- The move constructor. -/
  | moveConstruct (o : ℕ) (left : String)
  /-- The move assignment. -/
  | moveAssign (this o : ℕ) (left : String)
  /-- The destructor. -/
  | destroy (this : ℕ)

/-- What is left of a guard that has been moved. -/
def Guard.moved (left : String) : Guard := { key := left }

namespace World

variable (w : World)

/-- The guard that is an object. -/
def guard (i : ℕ) : Option Guard := w.objects[i]?.join

/-- `if (registry) registry->release(key)`. -/
def releaseOf (g : Guard) : World :=
  match g.registry with
  | none => w
  | some r =>
    { w with registries := Function.update w.registries r (release (w.registries r) g.key) }

def setObject (i : ℕ) (x : Option Guard) : World := { w with objects := w.objects.set i x }

/-- The effect of an operation; `none` for an object that is not there. -/
def step : GuardOp → World → Option World
  | .acquire r key, w =>
    let e := acquired w.mutexes (w.registries r key)
    some { registries := Function.update w.registries r (acquire (w.registries r) w.mutexes key)
           mutexes := w.mutexes + 1
           objects := w.objects ++ [some ⟨some e.mu, key, some r⟩] }
  | .construct, w => some { w with objects := w.objects ++ [some {}] }
  | .moveConstruct o left, w =>
    (w.guard o).map fun g ↦
      { w.setObject o (some (.moved left)) with
        objects := (w.setObject o (some (.moved left))).objects ++ [some g] }
  | .moveAssign this o left, w =>
    match w.guard this, w.guard o with
    | some g, some g' =>
      if this = o then some w
      else some (((w.releaseOf g).setObject this (some g')).setObject o (some (.moved left)))
    | _, _ => none
  | .destroy this, w => (w.guard this).map fun g ↦ (w.releaseOf g).setObject this none

end World

/-- Programs with guards. -/
def guards : Labelled World GuardOp := ⟨World.step⟩

/-! ### The owners of an entry -/

/-- The entry of a key is owned by the guards of that key. -/
structure Owns (inflight : Inflight) (gs : List Guard) (key : String) : Prop where
  /-- Without a guard there is no entry. -/
  owned : ∀ e, inflight key = some e → ∃ g ∈ gs, g.key = key
  /-- A guard has an entry. -/
  entry : ∀ g ∈ gs, g.key = key → (inflight key).isSome = true
  refs : ∀ e, inflight key = some e → e.refs = gs.countP (·.key = key)
  mutex : ∀ e, inflight key = some e → ∀ g ∈ gs, g.key = key → g.mu = some e.mu

section Owns

variable {inflight : Inflight} {gs gs' : List Guard} {g : Guard} {key : String}

/-- The order of the guards does not matter. -/
theorem Owns.perm (h : Owns inflight gs key) (hp : gs.Perm gs') : Owns inflight gs' key where
  owned e he := by
    obtain ⟨g, hg, hk⟩ := h.owned e he
    exact ⟨g, hp.mem_iff.1 hg, hk⟩
  entry g hg hk := h.entry g (hp.mem_iff.2 hg) hk
  refs e he := (h.refs e he).trans (hp.countP_eq _)
  mutex e he g hg hk := h.mutex e he g (hp.mem_iff.2 hg) hk

theorem owns_nil : Owns (fun _ ↦ none) [] key where
  owned _ he := by cases he
  entry _ hg := absurd hg List.not_mem_nil
  refs _ he := by cases he
  mutex _ he := by cases he

/-- The guards of another key do not matter. -/
theorem owns_cons_ne (hne : g.key ≠ key) : Owns inflight (g :: gs) key ↔ Owns inflight gs key := by
  have hcount : (g :: gs).countP (·.key = key) = gs.countP (·.key = key) :=
    List.countP_cons_of_neg (by simpa using hne)
  constructor
  · intro h
    refine ⟨fun e he ↦ ?_, fun g' hg' ↦ h.entry g' (List.mem_cons_of_mem _ hg'),
      fun e he ↦ (h.refs e he).trans hcount,
      fun e he g' hg' ↦ h.mutex e he g' (List.mem_cons_of_mem _ hg')⟩
    obtain ⟨g', hg', hk⟩ := h.owned e he
    rcases List.mem_cons.1 hg' with rfl | hg'
    · exact absurd hk hne
    · exact ⟨g', hg', hk⟩
  · intro h
    refine ⟨fun e he ↦ ?_, fun g' hg' hk ↦ ?_, fun e he ↦ (h.refs e he).trans hcount.symm,
      fun e he g' hg' hk ↦ ?_⟩
    · obtain ⟨g', hg', hk⟩ := h.owned e he
      exact ⟨g', List.mem_cons_of_mem _ hg', hk⟩
    · rcases List.mem_cons.1 hg' with rfl | hg'
      · exact absurd hk hne
      · exact h.entry g' hg' hk
    · rcases List.mem_cons.1 hg' with rfl | hg'
      · exact absurd hk hne
      · exact h.mutex e he g' hg' hk

/-- What a key is owned by depends on its entry alone. -/
theorem Owns.congr {inflight' : Inflight} (h : Owns inflight gs key)
    (heq : inflight' key = inflight key) : Owns inflight' gs key where
  owned := heq ▸ h.owned
  entry := heq ▸ h.entry
  refs := heq ▸ h.refs
  mutex := heq ▸ h.mutex

/-- **A guard is added.** -/
theorem Owns.acquire (h : Owns inflight gs key) (fresh : ℕ) (k : String) (r : Option ℕ) :
    Owns (acquire inflight fresh k)
      (⟨some (acquired fresh (inflight k)).mu, k, r⟩ :: gs) key := by
  rcases eq_or_ne k key with rfl | hne
  swap
  · exact (owns_cons_ne hne).2 (h.congr (Function.update_of_ne hne.symm _ _))
  have hentry : InflightRegistry.acquire inflight fresh k k =
      some (acquired fresh (inflight k)) := Function.update_self _ _ _
  have hcount : (⟨some (acquired fresh (inflight k)).mu, k, r⟩ :: gs : List Guard).countP
      (·.key = k) = gs.countP (·.key = k) + 1 := List.countP_cons_of_pos (by simp)
  refine ⟨fun _ _ ↦ ⟨_, List.mem_cons_self, rfl⟩, fun _ _ _ ↦ by rw [hentry]; rfl, fun e he ↦ ?_,
    fun e he g hg hk ↦ ?_⟩
  · obtain rfl := Option.some.inj (hentry.symm.trans he)
    rw [hcount]
    cases hold : inflight k with
    | none =>
      have hzero : gs.countP (·.key = k) = 0 := by
        refine List.countP_eq_zero.2 fun g hg hk ↦ ?_
        have hsome := h.entry g hg (of_decide_eq_true hk)
        rw [hold] at hsome
        cases hsome
      rw [hzero]
      rfl
    | some e => exact congrArg (· + 1) (h.refs e hold)
  · obtain rfl := Option.some.inj (hentry.symm.trans he)
    rcases List.mem_cons.1 hg with rfl | hg
    · rfl
    · obtain ⟨e, hold⟩ := Option.isSome_iff_exists.1 (h.entry g hg hk)
      rw [hold, h.mutex e hold g hg hk]
      rfl

/-- **A guard is released.** -/
theorem Owns.release (h : Owns inflight (g :: gs) key) :
    Owns (release inflight g.key) gs key := by
  rcases eq_or_ne g.key key with rfl | hne
  swap
  · exact ((owns_cons_ne hne).1 h).congr (Function.update_of_ne hne.symm _ _)
  obtain ⟨e, he⟩ := Option.isSome_iff_exists.1 (h.entry g List.mem_cons_self rfl)
  have hrefs : e.refs = gs.countP (·.key = g.key) + 1 :=
    (h.refs e he).trans (List.countP_cons_of_pos (by simp))
  have hentry : InflightRegistry.release inflight g.key g.key =
      if 1 < e.refs then some ⟨e.mu, e.refs - 1⟩ else none := by
    rw [InflightRegistry.release, Function.update_self, he]
    rfl
  have hmutex := fun g' hg' ↦ h.mutex e he g' (List.mem_cons_of_mem _ hg')
  by_cases hlast : 1 < e.refs
  · rw [if_pos hlast] at hentry
    refine ⟨fun _ _ ↦ ?_, fun _ _ _ ↦ by rw [hentry]; rfl, fun e' he' ↦ ?_, fun e' he' ↦ ?_⟩
    · obtain ⟨g', hg', hk⟩ := List.countP_pos_iff.1 (show 0 < gs.countP (·.key = g.key) by omega)
      exact ⟨g', hg', of_decide_eq_true hk⟩
    · obtain rfl := Option.some.inj (hentry.symm.trans he')
      show e.refs - 1 = _
      omega
    · obtain rfl := Option.some.inj (hentry.symm.trans he')
      exact hmutex
  · -- the last guard of the key
    rw [if_neg hlast] at hentry
    have hzero : gs.countP (·.key = g.key) = 0 := by omega
    have hnone : ∀ e', InflightRegistry.release inflight g.key g.key ≠ some e' := by
      intro e' he'
      cases hentry.symm.trans he'
    refine ⟨fun e' he' ↦ absurd he' (hnone e'), fun g' hg' hk ↦ ?_,
      fun e' he' ↦ absurd he' (hnone e'), fun e' he' ↦ absurd he' (hnone e')⟩
    exact absurd (decide_eq_true hk) (List.countP_eq_zero.1 hzero g' hg')

end Owns

/-! ### Moves -/

/-- The guard of a registry that an object is. -/
def aliveIn (r : ℕ) (x : Option Guard) : Option Guard := x.filter (·.registry = some r)

/-- The guards of a registry that have not been moved from. -/
def World.live (w : World) (r : ℕ) : List Guard := w.objects.filterMap (aliveIn r)

section Objects

variable {α β : Type} {f : α → Option β} {l : List α} {i j : ℕ} {x y : α}

/-- An element, and the others. -/
theorem filterMap_perm (h : l[i]? = some x) :
    (l.filterMap f).Perm ((f x).toList ++ (l.eraseIdx i).filterMap f) := by
  obtain ⟨hlt, rfl⟩ := List.getElem?_eq_some_iff.1 h
  have hp := (List.getElem_cons_eraseIdx_perm hlt).filterMap f
  cases hx : f l[i] with
  | none =>
    rw [List.filterMap_cons_none hx] at hp
    exact hp.symm
  | some b =>
    rw [List.filterMap_cons_some hx] at hp
    exact hp.symm

/-- An element is replaced. -/
theorem filterMap_set_perm (h : l[i]? = some x) :
    ((f x).toList ++ (l.set i y).filterMap f).Perm ((f y).toList ++ l.filterMap f) := by
  have hlt := (List.getElem?_eq_some_iff.1 h).1
  have hset : ((l.set i y).filterMap f).Perm ((f y).toList ++ (l.eraseIdx i).filterMap f) := by
    have hp := filterMap_perm (f := f) (List.getElem?_set_self (a := y) hlt)
    rwa [List.eraseIdx_set_eq] at hp
  have hswap : ((f x).toList ++ ((f y).toList ++ (l.eraseIdx i).filterMap f)).Perm
      ((f y).toList ++ ((f x).toList ++ (l.eraseIdx i).filterMap f)) := by
    rw [← List.append_assoc, ← List.append_assoc]
    exact List.perm_append_comm.append_right _
  exact ((hset.append_left _).trans hswap).trans ((filterMap_perm h).symm.append_left _)

end Objects

/-- Every entry of every registry is owned by the guards of its key. -/
def World.Owned (w : World) : Prop := ∀ r key, Owns (w.registries r) (w.live r) key

section Steps

variable {w w' : World} {i j r : ℕ} {g g' : Guard} {key left : String}

theorem guard_eq_some : w.guard i = some g ↔ w.objects[i]? = some (some g) :=
  Option.join_eq_some_iff

theorem aliveIn_of_ne (h : g.registry ≠ some r) : aliveIn r (some g) = none := by
  rw [aliveIn, Option.filter_some, if_neg (by simpa using h)]

theorem aliveIn_of_eq (h : g.registry = some r) : aliveIn r (some g) = some g := by
  rw [aliveIn, Option.filter_some, if_pos (by simpa using h)]

theorem aliveIn_moved : aliveIn r (some (.moved left)) = none := rfl

/-- A new object. -/
theorem live_push (x : Option Guard) (registries : ℕ → Inflight) (mutexes : ℕ) :
    (World.live ⟨registries, mutexes, w.objects ++ [x]⟩ r) =
      w.live r ++ (aliveIn r x).toList := by
  rw [World.live, List.filterMap_append]
  cases h : aliveIn r x with
  | none => rw [List.filterMap_cons_none h]; rfl
  | some g => rw [List.filterMap_cons_some h]; rfl

/-- **The acquisition of a guard.** -/
theorem World.Owned.acquire (h : w.Owned) (r : ℕ) (key : String) :
    World.Owned
      { registries := Function.update w.registries r (acquire (w.registries r) w.mutexes key)
        mutexes := w.mutexes + 1
        objects := w.objects ++
          [some ⟨some (acquired w.mutexes (w.registries r key)).mu, key, some r⟩] } := by
  intro r' key'
  rw [live_push]
  show Owns (Function.update w.registries r _ r') _ key'
  rcases eq_or_ne r' r with rfl | hne
  · rw [Function.update_self, aliveIn_of_eq rfl]
    exact ((h r' key').acquire w.mutexes key (some r')).perm (List.perm_append_singleton _ _).symm
  · rw [Function.update_of_ne hne, aliveIn_of_ne fun heq ↦ hne (Option.some.inj heq).symm]
    exact (h r' key').perm (List.append_nil _ ▸ .refl _)

/-- **The end of a guard**: it is released, and what takes its place is not alive. -/
theorem World.Owned.drop (h : w.Owned) (hg : w.guard i = some g) {x : Option Guard}
    (hx : ∀ r, aliveIn r x = none) : ((w.releaseOf g).setObject i x).Owned := by
  intro r key
  have hp := filterMap_set_perm (f := aliveIn r) (y := x) (guard_eq_some.1 hg)
  rw [hx] at hp
  cases hreg : g.registry with
  | none =>
    rw [aliveIn_of_ne (by simp [hreg])] at hp
    rw [World.releaseOf, hreg]
    exact (h r key).perm hp.symm
  | some r₀ =>
    rw [World.releaseOf, hreg]
    show Owns (Function.update w.registries r₀ _ r) _ key
    rcases eq_or_ne r r₀ with rfl | hne
    · rw [aliveIn_of_eq hreg] at hp
      rw [Function.update_self]
      exact ((h r key).perm hp.symm).release
    · rw [aliveIn_of_ne (by rw [hreg]; exact fun heq ↦ hne (Option.some.inj heq).symm)] at hp
      rw [Function.update_of_ne hne]
      exact (h r key).perm hp.symm

/-- **The move of a guard**, onto an object that is not alive. -/
theorem World.Owned.shift (h : w.Owned) {x : Option Guard} (hi : w.objects[i]? = some x)
    (hx : ∀ r, aliveIn r x = none) (hj : w.guard j = some g) (hij : i ≠ j) (left : String) :
    ((w.setObject i (some g)).setObject j (some (.moved left))).Owned := by
  intro r key
  have hp₁ := filterMap_set_perm (f := aliveIn r) (y := some g) hi
  have hj' : (w.objects.set i (some g))[j]? = some (some g) := by
    rw [List.getElem?_set_ne hij]
    exact guard_eq_some.1 hj
  have hp₂ := filterMap_set_perm (f := aliveIn r) (y := some (.moved left)) hj'
  rw [hx] at hp₁
  rw [aliveIn_moved] at hp₂
  exact (h r key).perm ((List.perm_append_left_iff _).1 (hp₂.trans hp₁).symm)

/-- **The move of a guard onto another**: what stood there is released first. -/
theorem World.Owned.assign (h : w.Owned) (hi : w.guard i = some g) (hj : w.guard j = some g')
    (hij : i ≠ j) (left : String) :
    (((w.releaseOf g).setObject i (some g')).setObject j (some (.moved left))).Owned := by
  have hdrop : ((w.releaseOf g).setObject i none).Owned := h.drop hi fun _ ↦ rfl
  have hlt := (List.getElem?_eq_some_iff.1 (guard_eq_some.1 hi)).1
  have hhole : (w.objects.set i none)[i]? = some none := List.getElem?_set_self hlt
  have hother : (w.objects.set i none)[j]? = some (some g') := by
    rw [List.getElem?_set_ne hij]
    exact guard_eq_some.1 hj
  have hobjects : (w.releaseOf g).objects = w.objects := by
    rw [World.releaseOf]
    split <;> rfl
  have hshift := hdrop.shift (i := i) (j := j) (g := g') (x := none)
    (by rw [World.setObject, hobjects]; exact hhole) (fun _ ↦ rfl)
    (guard_eq_some.2 (by rw [World.setObject, hobjects]; exact hother)) hij left
  rwa [show ((w.releaseOf g).setObject i none).setObject i (some g') =
    (w.releaseOf g).setObject i (some g') by simp [World.setObject]] at hshift

/-- **Every operation** leaves every entry with its guards. -/
theorem World.Owned.step {o : GuardOp} (h : w.Owned) (hx : World.step o w = some w') :
    w'.Owned := by
  cases o with
  | acquire r key =>
    obtain rfl := Option.some.inj hx
    exact h.acquire r key
  | construct =>
    obtain rfl := Option.some.inj hx
    intro r key
    rw [live_push]
    exact (h r key).perm (.of_eq (List.append_nil _).symm)
  | moveConstruct o left =>
    obtain ⟨g, hg, rfl⟩ := Option.map_eq_some_iff.1 hx
    intro r key
    have hp := filterMap_set_perm (f := aliveIn r) (y := some (.moved left)) (guard_eq_some.1 hg)
    rw [aliveIn_moved] at hp
    rw [live_push]
    exact (h r key).perm (List.perm_append_comm.trans hp).symm
  | moveAssign this o left =>
    simp only [World.step] at hx
    split at hx
    · next g g' hg hg' =>
      split at hx
      · obtain rfl := Option.some.inj hx
        exact h
      · next hne =>
        obtain rfl := Option.some.inj hx
        exact h.assign hg hg' hne left
    · cases hx
  | destroy this =>
    obtain ⟨g, hg, rfl⟩ := Option.map_eq_some_iff.1 hx
    exact h.drop hg fun _ ↦ rfl

end Steps

/-! ### The contract -/

/-- The guards of a key of a registry that have not been moved from. -/
def World.guardsOf (w : World) (r : ℕ) (key : String) : List Guard :=
  (w.live r).filter (·.key = key)

theorem mem_guardsOf {w : World} {r : ℕ} {key : String} {g : Guard} :
    g ∈ w.guardsOf r key ↔ g ∈ w.live r ∧ g.key = key := by
  rw [World.guardsOf, List.mem_filter, decide_eq_true_eq]

/-- **Reference counting.** After any program with guards: a key has an entry if and only if one
of its guards is alive, the entry counts them, and all of them hold its mutex, whatever has been
released before. -/
theorem entry_iff_guards {w : World} (hw : guards.Reach (fun _ _ ↦ True) {} w) (r : ℕ)
    (key : String) :
    ((w.registries r key).isSome = true ↔ ∃ g, g ∈ w.guardsOf r key) ∧
      (∀ e, w.registries r key = some e →
        e.refs = (w.guardsOf r key).length ∧ ∀ g ∈ w.guardsOf r key, g.mu = some e.mu) ∧
      ∀ g ∈ w.guardsOf r key, ∀ g' ∈ w.guardsOf r key, g.mu.isSome = true ∧ g.mu = g'.mu := by
  have howned : w.Owned := Labelled.invariant hw (fun _ _ ↦ owns_nil) fun h _ hx ↦ h.step hx
  have h := howned r key
  have hsome : ∀ g ∈ w.guardsOf r key, ∃ e, w.registries r key = some e := by
    intro g hg
    obtain ⟨hlive, hkey⟩ := mem_guardsOf.1 hg
    exact Option.isSome_iff_exists.1 (h.entry g hlive hkey)
  have hmutex : ∀ e, w.registries r key = some e → ∀ g ∈ w.guardsOf r key, g.mu = some e.mu := by
    intro e he g hg
    obtain ⟨hlive, hkey⟩ := mem_guardsOf.1 hg
    exact h.mutex e he g hlive hkey
  refine ⟨⟨fun he ↦ ?_, fun ⟨g, hg⟩ ↦ ?_⟩, fun e he ↦ ⟨?_, hmutex e he⟩, fun g hg g' hg' ↦ ?_⟩
  · obtain ⟨e, he⟩ := Option.isSome_iff_exists.1 he
    obtain ⟨g, hlive, hkey⟩ := h.owned e he
    exact ⟨g, mem_guardsOf.2 ⟨hlive, hkey⟩⟩
  · exact Option.isSome_iff_exists.2 (hsome g hg)
  · rw [h.refs e he, World.guardsOf, List.countP_eq_length_filter]
  · obtain ⟨e, he⟩ := hsome g hg
    rw [hmutex e he g hg, hmutex e he g' hg']
    exact ⟨rfl, rfl⟩

/-- Two of three guards of a key are gone, one by an assignment and one by its destructor, and the
third is still counted. -/
theorem entry_iff_guards_third : ∃ w, guards.Reach (fun _ _ ↦ True) {} w ∧
    w.registries 0 "k" = some ⟨0, 1⟩ ∧ (w.guardsOf 0 "k").length = 1 := by
  obtain ⟨w, hw, he⟩ := Labelled.exists_of_run (L := guards) (fun _ _ ↦ True) {}
    [.acquire 0 "k", .acquire 0 "k", .construct, .moveAssign 0 2 "", .destroy 2, .acquire 0 "k",
      .moveConstruct 3 "", .destroy 1]
    (fun w ↦ w.registries 0 "k" = some ⟨0, 1⟩) (by decide +kernel)
  exact ⟨w, hw, he, ((entry_iff_guards hw 0 "k").2.1 _ he).1.symm⟩

end ChatNow.InflightRegistry
