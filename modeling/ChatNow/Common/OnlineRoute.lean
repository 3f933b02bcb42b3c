import Mathlib.Data.List.AList
import Mathlib.Data.Finset.Basic

/-!
# OnlineRoute

The route table of a user, `OnlineRoute` of `common/dao/data_redis.hpp`: a hash from the devices to
the push instances that hold their connections, and the set of the devices that have a route, under
two keys of one slot. `bind`, `touch` and `unbind` are one script each, which Redis runs as one
step.

A script reads and writes the two keys only, and a run of the table is a list of scripts. Over it
`Owners` says what the table is for: which instance owns a device. `Refines.exec` is the step of the
refinement, and `run_refines` the whole run.

A key holds a value of some type or does not exist; a hash or a set that loses its last element does
not exist any more. Keys do not expire here, so `EXPIRE` leaves the values as they are. The device
set of older releases, which the scripts never read, is left out.
-/

namespace ChatNow

/-- What a key of the table holds, of the types that the scripts tell apart. -/
inductive RouteValue
  | hash (fields : AList fun _ : String ↦ String)
  | set (members : Finset String)
  | other

namespace RouteValue

/-- The fields of a hash; a key that does not exist has none. -/
def fields : Option RouteValue → AList fun _ : String ↦ String
  | some (hash fs) => fs
  | _ => ∅

/-- The members of a set. -/
def members : Option RouteValue → Finset String
  | some (set ms) => ms
  | _ => ∅

/-- `HSET`. -/
def hset (v : Option RouteValue) (f x : String) : Option RouteValue :=
  some (hash ((fields v).insert f x))

/-- `HDEL`. -/
def hdel (v : Option RouteValue) (f : String) : Option RouteValue :=
  if ((fields v).erase f).entries = [] then none else some (hash ((fields v).erase f))

/-- `SADD`. -/
def sadd (v : Option RouteValue) (m : String) : Option RouteValue :=
  some (set (insert m (members v)))

/-- `SREM`. -/
def srem (v : Option RouteValue) (m : String) : Option RouteValue :=
  if (members v).erase m = ∅ then none else some (set ((members v).erase m))

/-- The key does not exist or holds a hash. -/
def NoneOrHash : Option RouteValue → Prop
  | none | some (hash _) => True
  | _ => False

instance : DecidablePred NoneOrHash
  | none | some (hash _) => .isTrue trivial
  | some (set _) | some other => .isFalse id

/-- The key does not exist or holds a set. -/
def NoneOrSet : Option RouteValue → Prop
  | none | some (set _) => True
  | _ => False

instance : DecidablePred NoneOrSet
  | none | some (set _) => .isTrue trivial
  | some (hash _) | some other => .isFalse id

variable (v : Option RouteValue)

@[simp] theorem fields_hset (f x : String) : fields (hset v f x) = (fields v).insert f x := rfl

@[simp] theorem fields_hdel (f : String) : fields (hdel v f) = (fields v).erase f := by
  unfold hdel
  split
  · next h => exact (AList.ext h).symm
  · rfl

@[simp] theorem members_sadd (m : String) : members (sadd v m) = insert m (members v) := rfl

@[simp] theorem members_srem (m : String) : members (srem v m) = (members v).erase m := by
  unfold srem
  split
  · next h => exact h.symm
  · rfl

theorem noneOrHash_hdel (f : String) : NoneOrHash (hdel v f) := by
  unfold hdel
  split <;> trivial

theorem noneOrSet_srem (m : String) : NoneOrSet (srem v m) := by
  unfold srem
  split <;> trivial

end RouteValue

open RouteValue

/-- `randomized_ttl`, at the rounded `jitter` that was drawn. -/
def randomized_ttl (base jitter : ℤ) : ℤ :=
  if base + jitter < 1 then 1 else base + jitter

theorem randomized_ttl_pos (base jitter : ℤ) : 0 < randomized_ttl base jitter := by
  unfold randomized_ttl
  split <;> omega

def kOnlineTtl : ℤ := 30

def kSessionTtl : ℤ := 24 * 3600 * 7

namespace OnlineRoute

/-- The two keys of a user: the route hash and the tagged device set. -/
structure Keys where
  route : Option RouteValue := none
  devices : Option RouteValue := none

/-- `kBindLua`. An error reply leaves the keys as they are. -/
def kBindLua (did inst : String) (route_ttl device_ttl : ℤ) (s : Keys) : Keys × Except String ℕ :=
  if route_ttl ≤ 0 ∨ device_ttl ≤ 0 then (s, .error "invalid ttl")
  else if ¬NoneOrHash s.route then (s, .error "route key wrong type")
  else if ¬NoneOrSet s.devices then (s, .error "device key wrong type")
  else ({ route := hset s.route did inst, devices := sadd s.devices did }, .ok 1)

/-- `kTouchLua`. -/
def kTouchLua (route_ttl device_ttl : ℤ) (s : Keys) : Keys × Except String ℕ :=
  if route_ttl ≤ 0 ∨ device_ttl ≤ 0 then (s, .error "invalid ttl") else (s, .ok 1)

/-- `HDEL` of the device from the route and `SREM` from the set. -/
def Keys.drop (s : Keys) (did : String) : Keys where
  route := hdel s.route did
  devices := srem s.devices did

/-- One turn of the loop of `kUnbindLua` over the entries of the hash. -/
def unbindEntry (inst : String) (s : Keys × ℕ) (entry : Σ _ : String, String) : Keys × ℕ :=
  if entry.2 = inst then (s.1.drop entry.1, s.2 + 1) else s

/-- `kUnbindLua`: of every device of the instance when no device is named. -/
def kUnbindLua (did inst : String) (s : Keys) : Keys × Except String ℕ :=
  if ¬NoneOrHash s.route then (s, .error "route key wrong type")
  else if ¬NoneOrSet s.devices then (s, .error "device key wrong type")
  else if did = "" then
    let (s', removed) := (fields s.route).entries.foldl (unbindEntry inst) (s, 0)
    (s', .ok removed)
  else if (fields s.route).lookup did = some inst then (s.drop did, .ok 1)
  else (s, .ok 0)

end OnlineRoute

/-- A call of `OnlineRoute` for the user, with the jitters that `randomized_ttl` drew. -/
inductive RouteOp
  | bind (device_id push_instance : String) (route_jitter device_jitter : ℤ)
  | touch (route_jitter device_jitter : ℤ)
  | unbind (device_id push_instance : String)

namespace RouteOp

open OnlineRoute

/-- The keys after the call. What a script answers is only logged. -/
def exec (s : Keys) : RouteOp → Keys
  | bind did inst rj dj =>
    (kBindLua did inst (randomized_ttl kOnlineTtl rj) (randomized_ttl kSessionTtl dj) s).1
  | touch rj dj => (kTouchLua (randomized_ttl kOnlineTtl rj) (randomized_ttl kSessionTtl dj) s).1
  | unbind did inst => (kUnbindLua did inst s).1

/-- The call binds the device. -/
def Binds (d : String) : RouteOp → Prop
  | bind did _ _ _ => did = d
  | _ => False

/-- The call unbinds the device, or all devices, for the instance. -/
def Unbinds (d i : String) : RouteOp → Prop
  | unbind did inst => (did = "" ∨ did = d) ∧ inst = i
  | _ => False

instance (d i : String) : DecidablePred (Unbinds d i)
  | unbind did inst => inferInstanceAs (Decidable ((did = "" ∨ did = d) ∧ inst = i))
  | bind _ _ _ _ | touch _ _ => .isFalse id

end RouteOp

namespace OnlineRoute

/-- The keys after the calls, in the order in which Redis ran their scripts. -/
def run (ops : List RouteOp) : Keys := ops.foldl RouteOp.exec {}

/-- The instance that the device is routed to. -/
def Keys.instance_of (s : Keys) (d : String) : Option String := (fields s.route).lookup d

/-! ### Who owns a device -/

/-- Which instance owns which device. -/
abbrev Owners := String → Option String

/-- What a call means: a bind takes the device, and an unbind releases what its instance owns. -/
def act (m : Owners) : RouteOp → Owners
  | .bind did inst _ _ => Function.update m did (some inst)
  | .touch _ _ => m
  | .unbind did inst => fun d ↦ if (did = "" ∨ did = d) ∧ m d = some inst then none else m d

/-- The keys have the types that the scripts ask for, the hash holds the owners, and the set the
devices that have one. -/
structure Refines (s : Keys) (m : Owners) : Prop where
  hash : NoneOrHash s.route
  set : NoneOrSet s.devices
  owner : ∀ d, s.instance_of d = m d
  device : ∀ d, d ∈ members s.devices ↔ (m d).isSome

namespace Refines

variable {s : Keys} {m m' : Owners}

theorem congr (h : Refines s m) (hm : ∀ d, m d = m' d) : Refines s m' :=
  (funext hm : m = m') ▸ h

/-- To bind is to update one owner. -/
theorem bound (h : Refines s m) (did inst : String) :
    Refines { route := hset s.route did inst, devices := sadd s.devices did }
      (Function.update m did (some inst)) where
  hash := trivial
  set := trivial
  owner d := by
    by_cases hd : d = did
    · subst hd
      simp [Keys.instance_of]
    · have hne : (fields s.route).lookup d = m d := h.owner d
      simpa [Keys.instance_of, Function.update_of_ne hd, AList.lookup_insert_ne hd] using hne
  device d := by
    by_cases hd : d = did
    · subst hd
      simp
    · simpa [Function.update_of_ne hd, hd] using h.device d

/-- To drop a device is to leave it without an owner. -/
theorem drop (h : Refines s m) (did : String) :
    Refines (s.drop did) (Function.update m did none) where
  hash := noneOrHash_hdel _ _
  set := noneOrSet_srem _ _
  owner d := by
    by_cases hd : d = did
    · subst hd
      simp [Keys.instance_of, Keys.drop]
    · have hne : (fields s.route).lookup d = m d := h.owner d
      simpa [Keys.instance_of, Keys.drop, Function.update_of_ne hd, AList.lookup_erase_ne hd]
        using hne
  device d := by
    by_cases hd : d = did
    · subst hd
      simp [Keys.drop]
    · simpa [Keys.drop, Function.update_of_ne hd, hd] using h.device d

/-- The loop of the unbind drops the devices that the entries give to the instance. -/
theorem loop {inst : String} {entries : List (Σ _ : String, String)} (h : Refines s m) (n : ℕ) :
    Refines (entries.foldl (unbindEntry inst) (s, n)).1
      fun d ↦ if ⟨d, inst⟩ ∈ entries then none else m d := by
  induction entries generalizing s m n with
  | nil => simpa using h
  | cons entry entries ih =>
    obtain ⟨f, v⟩ := entry
    rw [List.foldl_cons, unbindEntry]
    by_cases hv : v = inst
    · subst hv
      rw [if_pos rfl]
      refine (ih (h.drop f) (n + 1)).congr fun d ↦ ?_
      by_cases hd : d = f
      · subst hd
        simp
      · simp [hd]
    · rw [if_neg hv]
      refine (ih h n).congr fun d ↦ ?_
      simp [show inst ≠ v from fun e ↦ hv e.symm]

/-- **The step of the refinement.** -/
theorem exec (h : Refines s m) (op : RouteOp) : Refines (op.exec s) (act m op) := by
  cases op with
  | bind did inst rj dj =>
    have hr := randomized_ttl_pos kOnlineTtl rj
    have hd := randomized_ttl_pos kSessionTtl dj
    rw [RouteOp.exec, kBindLua, if_neg (by omega), if_neg (not_not_intro h.hash),
      if_neg (not_not_intro h.set)]
    exact h.bound did inst
  | touch rj dj =>
    rw [RouteOp.exec, kTouchLua]
    split <;> exact h
  | unbind did inst =>
    rw [RouteOp.exec, kUnbindLua, if_neg (not_not_intro h.hash), if_neg (not_not_intro h.set)]
    by_cases hall : did = ""
    · rw [if_pos hall]
      refine (h.loop 0).congr fun d ↦ ?_
      -- the entries that the loop goes through are those of the hash itself
      have hmem : (⟨d, inst⟩ : Σ _ : String, String) ∈ (fields s.route).entries ↔
          m d = some inst := by
        rw [← h.owner d, Keys.instance_of, ← Option.mem_def, AList.mem_lookup_iff]
      simp [act, hmem, hall]
    · rw [if_neg hall]
      have howner : (fields s.route).lookup did = m did := h.owner did
      split
      · next hown =>
        refine (h.drop did).congr fun d ↦ ?_
        by_cases hd : d = did
        · subst hd
          simp [act, ← howner, hown]
        · simp [act, hd, hall, show did ≠ d from fun e ↦ hd e.symm]
      · next hown =>
        refine h.congr fun d ↦ ?_
        by_cases hd : d = did
        · subst hd
          simp [act, hall, ← howner, hown]
        · simp [act, hall, show did ≠ d from fun e ↦ hd e.symm]

end Refines

/-- The owners after the calls. -/
def owners (ops : List RouteOp) : Owners := ops.foldl act fun _ ↦ none

/-- **The run of the refinement.** -/
theorem run_refines (ops : List RouteOp) : Refines (run ops) (owners ops) := by
  have hfold : ∀ {s m}, Refines s m → Refines (ops.foldl RouteOp.exec s) (ops.foldl act m) := by
    induction ops with
    | nil => exact id
    | cons op ops ih => exact fun h ↦ ih (h.exec op)
  exact hfold ⟨trivial, trivial, fun _ ↦ rfl, fun _ ↦ by simp [members]⟩

/-! ### Whose the device is -/

variable {d i : String} {m : Owners} {ops : List RouteOp}

/-- What a call other than a bind of the device does to its owner. -/
theorem act_of_not_binds {op : RouteOp} (h : ¬op.Binds d) :
    act m op d = if ∃ i, m d = some i ∧ op.Unbinds d i then none else m d := by
  cases op with
  | bind did inst rj dj =>
    rw [act, Function.update_of_ne fun e ↦ h e.symm]
    simp [RouteOp.Unbinds]
  | touch rj dj => simp [act, RouteOp.Unbinds]
  | unbind did inst =>
    rw [act]
    refine if_congr ⟨fun hu ↦ ⟨inst, hu.2, hu.1, rfl⟩, ?_⟩ rfl rfl
    rintro ⟨i, hi, hu, rfl⟩
    exact ⟨hu, hi⟩

/-- A device without an owner has none until it is bound. -/
theorem foldl_act_of_none (h : ∀ op ∈ ops, ¬op.Binds d) (hm : m d = none) :
    ops.foldl act m d = none := by
  induction ops generalizing m with
  | nil => exact hm
  | cons op ops ih =>
    obtain ⟨hop, hops⟩ := List.forall_mem_cons.1 h
    refine ih hops ?_
    rw [act_of_not_binds hop]
    simp [hm]

/-- The owner of a device keeps it until it unbinds it or the device is bound again. -/
theorem foldl_act_of_some (h : ∀ op ∈ ops, ¬op.Binds d) (hm : m d = some i) :
    ops.foldl act m d = if ∃ op ∈ ops, op.Unbinds d i then none else some i := by
  induction ops generalizing m with
  | nil => simpa using hm
  | cons op ops ih =>
    obtain ⟨hop, hops⟩ := List.forall_mem_cons.1 h
    have hact := act_of_not_binds (m := m) hop
    rw [List.foldl_cons]
    by_cases hu : op.Unbinds d i
    · rw [foldl_act_of_none hops (by rw [hact, if_pos ⟨i, hm, hu⟩]), if_pos ⟨op, by simp, hu⟩]
    · have hkept : act m op d = some i := by
        rw [hact, if_neg ?_, hm]
        rintro ⟨j, hj, hu'⟩
        exact hu (Option.some.inj (hm.symm.trans hj) ▸ hu')
      simp [ih hops hkept, hu]

/-- **Route hand-over.** A device that was never bound has no route. After its last bind it is
routed to the instance of that bind, unless this instance unbound it since. An unbind by another
instance leaves the route alone. And the fields of the hash are the members of the device set. -/
theorem route_hand_over (ops : List RouteOp) (d : String) :
    ((∀ op ∈ ops, ¬op.Binds d) → (run ops).instance_of d = none) ∧
    (∀ before i rj dj after, ops = before ++ .bind d i rj dj :: after →
      (∀ op ∈ after, ¬op.Binds d) →
      (run ops).instance_of d = if ∃ op ∈ after, op.Unbinds d i then none else some i) ∧
    (∀ i d' j, (run ops).instance_of d = some i → j ≠ i →
      (run (ops ++ [.unbind d' j])).instance_of d = some i) ∧
    (d ∈ fields (run ops).route ↔ d ∈ members (run ops).devices) := by
  have href := run_refines ops
  refine ⟨fun h ↦ ?_, ?_, ?_, ?_⟩
  · rw [href.owner]
    exact foldl_act_of_none h rfl
  · rintro before i rj dj after rfl hafter
    rw [href.owner, owners, List.foldl_append, List.foldl_cons]
    exact foldl_act_of_some hafter (Function.update_self ..)
  · intro i d' j hi hj
    rw [href.owner] at hi
    rw [(run_refines _).owner, owners, List.foldl_append, ← owners]
    have hother : ¬∃ op ∈ [RouteOp.unbind d' j], op.Unbinds d i := by
      simpa [RouteOp.Unbinds] using fun _ ↦ hj
    rw [foldl_act_of_some (by simp [RouteOp.Binds]) hi, if_neg hother]
  · rw [href.device, ← href.owner]
    exact AList.lookup_isSome.symm

-- a device that moved to another instance, and the late close on the old one
example : (run [.bind "d" "A" 0 0, .bind "d" "B" 0 0, .unbind "d" "A", .unbind "" "A"]).instance_of
    "d" = some "B" := by decide +kernel

end OnlineRoute

end ChatNow
