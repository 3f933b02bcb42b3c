import Mathlib
import ChatNow.Lib.Base64
import ChatNow.Push.Picojson

/-!
# The members of the cross-instance outbox

`CrossInstanceOutbox::enqueue` of `common/dao/data_redis.hpp` puts the text of a member together, a
JSON object, and the reaper reads it with picojson (`parse_outbox_member`). The user ids and the
name of the peer stand in the text as they are, so one with a quote, a backslash or a control
character in it is not read back as it was, or makes the reaper drop the member.

## Main results

* `outbox_member_codec`: which members are read back.
-/

namespace ChatNow

open JsonString picojson

/-- The loop of `enqueue` over the users; there is a comma before all but the first. -/
def append_uids : Bool → List String → String
  | _, [] => ""
  | first, uid :: uids =>
    (if first then "" else ",") ++ "\"" ++ uid ++ "\"" ++ append_uids false uids

/-- The text that `CrossInstanceOutbox::enqueue` stores. -/
def enqueue_member (payload_b64 : String) (failed_uids : List String) (peer_instance : String) :
    String :=
  "\x7b\"k\":\"" ++ payload_b64 ++ "\",\"u\":[" ++ append_uids true failed_uids ++ "],\"p\":\"" ++
    peer_instance ++ "\"\x7d"

/-- All characters of the text stand for themselves between quotes. -/
def PlainText (s : String) : Prop := ∀ c ∈ s.toList, Plain c

instance (s : String) : Decidable (PlainText s) := List.decidableBAll Plain s.toList

/-- A text in base64, with its padding. -/
def IsBase64 (s : String) : Prop := ∀ c ∈ s.toList, c ∈ '=' :: Base64.alphabet

instance (s : String) : Decidable (IsBase64 s) :=
  List.decidableBAll (· ∈ '=' :: Base64.alphabet) s.toList

theorem IsBase64.plain {s : String} (h : IsBase64 s) : PlainText s := by
  have hall : ('=' :: Base64.alphabet).all (fun c ↦ decide (Plain c)) = true := by decide
  exact fun c hc ↦ of_decide_eq_true (List.all_eq_true.1 hall c (h c hc))

/-! ### The text -/

/-- The text from the field of the peer on. -/
def peer_text (peer : String) : List Char :=
  '"' :: 'p' :: '"' :: ':' :: '"' :: (peer.toList ++ ['"', '\x7d'])

/-- The text from the field of the users on. -/
def users_text (uids : List String) (peer : String) : List Char :=
  '"' :: 'u' :: '"' :: ':' :: '[' ::
    ((append_uids true uids).toList ++ ']' :: ',' :: peer_text peer)

/-- The length of the users in the text, with their quotes and what stands behind each. -/
def uids_width (uids : List String) : ℕ := (uids.map fun u ↦ u.toList.length + 3).sum

theorem toList_append_uids_first (uid : String) (uids : List String) :
    (append_uids true (uid :: uids)).toList =
      '"' :: (uid.toList ++ '"' :: (append_uids false uids).toList) := by
  simp only [append_uids, String.toList_append, List.append_assoc]
  rfl

theorem toList_append_uids_next (uid : String) (uids : List String) :
    (append_uids false (uid :: uids)).toList =
      ',' :: '"' :: (uid.toList ++ '"' :: (append_uids false uids).toList) := by
  simp only [append_uids, String.toList_append, List.append_assoc]
  rfl

theorem length_append_uids_next (uids : List String) :
    (append_uids false uids).toList.length = uids_width uids := by
  induction uids with
  | nil => rfl
  | cons uid uids ih =>
    rw [toList_append_uids_next, uids_width, List.map_cons, List.sum_cons, ← uids_width]
    simp only [List.length_cons, List.length_append, ih]
    omega

theorem length_users_text (uid : String) (uids : List String) (peer : String) :
    (users_text (uid :: uids) peer).length =
      uids_width (uid :: uids) + peer.toList.length + 13 := by
  rw [users_text, toList_append_uids_first, uids_width, List.map_cons, List.sum_cons, ← uids_width,
    ← length_append_uids_next]
  simp only [peer_text, List.length_cons, List.length_append, List.length_nil]
  omega

/-- There are not more users than characters. -/
theorem length_le_uids_width (uids : List String) : uids.length ≤ uids_width uids := by
  have hpos : ∀ i ∈ uids.map fun u ↦ u.toList.length + 3, 1 ≤ i := by
    intro i hi
    obtain ⟨u, -, rfl⟩ := List.mem_map.1 hi
    exact Nat.le_add_left 1 _
  have hle := List.length_le_sum_of_one_le _ hpos
  rwa [List.length_map] at hle

/-- An array from which the users are taken is as long as the users. -/
theorem uids_width_le {es : List JsonValue} {uids : List String}
    (h : es.filterMap JsonValue.string? = uids) :
    uids_width uids ≤ (es.map fun e ↦ elem_width e + 1).sum := by
  subst h
  induction es with
  | nil => exact le_rfl
  | cons e es ih =>
    rw [List.map_cons, List.sum_cons]
    cases e with
    | string s =>
      have hhead : (JsonValue.string s :: es).filterMap JsonValue.string? =
        s :: es.filterMap JsonValue.string? := rfl
      rw [hhead, uids_width, List.map_cons, List.sum_cons]
      exact Nat.add_le_add_left ih _
    | array vs => exact ih.trans (Nat.le_add_left _ _)
    | object fields => exact ih.trans (Nat.le_add_left _ _)
    | other => exact ih.trans (Nat.le_add_left _ _)

theorem toList_enqueue_member (b64 : String) (uids : List String) (peer : String) :
    (enqueue_member b64 uids peer).toList =
      '\x7b' :: '"' :: 'k' :: '"' :: ':' :: '"' ::
        (b64.toList ++ '"' :: ',' :: users_text uids peer) := by
  simp only [enqueue_member, String.toList_append, List.append_assoc]
  rfl

/-! ### The array -/

section Array

variable {depth n : ℕ} {uid : String} {uids : List String} {rest r : List Char}
  {vs : List JsonValue}

/-- A value that begins with a quote. -/
theorem parse_value_quote (s : List Char) : parse_value (depth + 1) ('"' :: s) =
    (parse_string s).map fun (v, s) ↦ (.string (String.ofList v), s) := rfl

/-- Plain ids are read back. -/
theorem parse_uids (hplain : ∀ u ∈ uid :: uids, PlainText u) (hn : uids.length < n) :
    parse_loop (parse_value (depth + 1)) ']' n
        ('"' :: (uid.toList ++ '"' :: ((append_uids false uids).toList ++ ']' :: rest))) =
      some ((uid :: uids).map .string, rest) := by
  induction uids generalizing uid n with
  | nil =>
    obtain ⟨n, rfl⟩ := Nat.exists_eq_succ_of_ne_zero (Nat.pos_iff_ne_zero.1 hn)
    rw [parse_loop, parse_value_quote, parse_string_plain (hplain uid List.mem_cons_self)]
    simp only [Option.map_some, Option.bind_some, String.ofList_toList]
    rfl
  | cons next uids ih =>
    obtain ⟨n, rfl⟩ := Nat.exists_eq_succ_of_ne_zero (Nat.ne_zero_of_lt hn)
    have hrec := ih (n := n) (List.forall_mem_of_forall_mem_cons hplain)
      (Nat.lt_of_succ_lt_succ hn)
    rw [parse_loop, parse_value_quote, parse_string_plain (hplain uid List.mem_cons_self),
      toList_append_uids_next]
    simp only [Option.map_some, Option.bind_some, String.ofList_toList, List.cons_append,
      List.append_assoc]
    have hcomma (s : List Char) : expect ',' (',' :: s) = some s := rfl
    rw [hcomma]
    dsimp only
    rw [hrec]
    rfl

/-- The first element stands at the head of what a loop gives. -/
theorem exists_cons_of_tail {α : Type} {elem : List Char → Option (α × List Char)} {closing : Char}
    {a : α} {as : List α} {s : List Char}
    (h : (match expect ',' s with
      | some s => (parse_loop elem closing n s).map fun (as, s) ↦ (a :: as, s)
      | none => (expect closing s).map fun s ↦ ([a], s)) = some (as, r)) :
    ∃ as', as = a :: as' := by
  split at h
  · obtain ⟨⟨as', r'⟩, -, heq⟩ := Option.map_eq_some_iff.1 h
    exact ⟨as', (Prod.mk.inj heq).1.symm⟩
  · obtain ⟨r', -, heq⟩ := Option.map_eq_some_iff.1 h
    exact ⟨[], (Prod.mk.inj heq).1.symm⟩

theorem toList_of_head {text : List Char}
    (h : (JsonValue.string (String.ofList text) :: vs).filterMap JsonValue.string? = uid :: uids) :
    uid.toList = text := by
  have hhead : (JsonValue.string (String.ofList text) :: vs).filterMap JsonValue.string? =
    String.ofList text :: vs.filterMap JsonValue.string? := rfl
  rw [← (List.cons.inj (hhead.symm.trans h)).1, String.toList_ofList]

/-- **Ids that are read back are plain**, and the array ends where it was closed. -/
theorem plain_of_parse_uids
    (hclose : ∀ v' r', parse_string (']' :: rest) = some (v', r') → v'.getLast? ≠ some '\\')
    (h : parse_loop (parse_value (depth + 1)) ']' n
        ('"' :: (uid.toList ++ '"' :: ((append_uids false uids).toList ++ ']' :: rest))) =
      some (vs, r))
    (hvs : vs.filterMap JsonValue.string? = uid :: uids) :
    (∀ u ∈ uid :: uids, PlainText u) ∧ r = rest := by
  induction uids generalizing uid n vs with
  | nil =>
    cases n with
    | zero => cases h
    | succ n =>
      obtain ⟨⟨v, s⟩, hv, htail⟩ := Option.bind_eq_some_iff.1 h
      rw [parse_value_quote] at hv
      obtain ⟨⟨text, s'⟩, hread, heq⟩ := Option.map_eq_some_iff.1 hv
      obtain ⟨rfl, rfl⟩ := Prod.mk.inj heq
      obtain ⟨vs', rfl⟩ := exists_cons_of_tail htail
      obtain rfl := toList_of_head hvs
      obtain ⟨hplain, rfl⟩ := plain_of_read_back hclose hread
      obtain ⟨-, rfl⟩ := Prod.mk.inj (Option.some.inj htail)
      exact ⟨fun u hu ↦ List.mem_singleton.1 hu ▸ hplain, rfl⟩
  | cons next uids ih =>
    cases n with
    | zero => cases h
    | succ n =>
      rw [toList_append_uids_next] at h
      simp only [List.cons_append, List.append_assoc] at h
      obtain ⟨⟨v, s⟩, hv, htail⟩ := Option.bind_eq_some_iff.1 h
      rw [parse_value_quote] at hv
      obtain ⟨⟨text, s'⟩, hread, heq⟩ := Option.map_eq_some_iff.1 hv
      obtain ⟨rfl, rfl⟩ := Prod.mk.inj heq
      obtain ⟨vs', rfl⟩ := exists_cons_of_tail htail
      obtain rfl := toList_of_head hvs
      have hcomma : ∀ v' r', parse_string (',' :: '"' :: (next.toList ++ '"' ::
          ((append_uids false uids).toList ++ ']' :: rest))) = some (v', r') →
            v'.getLast? ≠ some '\\' := by
        intro v' r' hv'
        rw [parse_string_char (by decide)] at hv'
        obtain ⟨rfl, -⟩ := Prod.mk.inj (Option.some.inj hv')
        decide
      obtain ⟨hplain, rfl⟩ := plain_of_read_back hcomma hread
      obtain ⟨⟨vs₁, r₁⟩, hrest, heq⟩ := Option.map_eq_some_iff.1 htail
      obtain ⟨hvs₁, rfl⟩ := Prod.mk.inj heq
      obtain ⟨-, rfl⟩ := List.cons.inj hvs₁
      obtain ⟨hall, rfl⟩ := ih hrest (List.cons.inj hvs).2
      exact ⟨List.forall_mem_cons.2 ⟨hplain, hall⟩, rfl⟩

end Array

/-! ### The fields -/

section Fields

variable {value : List Char → Option (JsonValue × List Char)} {depth n : ℕ} {b64 peer : String}
  {uids : List String} {r : List Char} {ms : List (String × JsonValue)}

/-- A field whose name is one character. -/
theorem parse_member_char {c : Char} (hc : Plain c) (s : List Char) :
    parse_member value ('"' :: c :: '"' :: ':' :: s) =
      (value s).map fun (v, s) ↦ ((String.ofList [c], v), s) := by
  have hquote (t : List Char) : expect '"' ('"' :: t) = some t := rfl
  have hcolon : expect ':' (':' :: s) = some s := rfl
  rw [parse_member, hquote, Option.bind_some, parse_string_char hc, Option.bind_some]
  dsimp only
  rw [hcolon, Option.bind_some]

/-- An element with a comma behind it. -/
theorem parse_loop_comma {α : Type} {elem : List Char → Option (α × List Char)} {closing : Char}
    {a : α} {s t : List Char} (h : elem s = some (a, ',' :: t)) :
    parse_loop elem closing (n + 1) s =
      (parse_loop elem closing n t).map fun (as, s) ↦ (a :: as, s) := by
  rw [parse_loop, h]
  rfl

/-- The text of a member has room for so many levels and fields. -/
theorem exists_length_enqueue_member (b64 : String) (uids : List String) (peer : String) :
    ∃ m, (enqueue_member b64 uids peer).toList.length = m + 4 := by
  refine ⟨b64.toList.length + (users_text uids peer).length + 4, ?_⟩
  rw [toList_enqueue_member]
  simp only [List.length_cons, List.length_append]
  omega

/-- The field of the payload is read, and the other fields follow. -/
theorem parse_enqueue_member (hb : PlainText b64) (uids : List String) (peer : String) :
    ∃ depth n, picojson.parse (enqueue_member b64 uids peer) =
      (parse_loop (parse_member (parse_value (depth + 2))) '\x7d' (n + 2)
        (users_text uids peer)).map
          fun (ms, _) ↦ .object (("k", .string b64) :: ms).reverse := by
  obtain ⟨m, hm⟩ := exists_length_enqueue_member b64 uids peer
  have hpayload : parse_member (parse_value (m + 4))
      ('"' :: 'k' :: '"' :: ':' :: '"' :: (b64.toList ++ '"' :: ',' :: users_text uids peer)) =
        some (("k", .string b64), ',' :: users_text uids peer) := by
    rw [parse_member_char (by decide), parse_value_quote, parse_string_plain hb]
    simp only [Option.map_some, String.ofList_toList]
  have hobject (s : List Char) : parse_value (m + 5) ('\x7b' :: '"' :: s) =
      (parse_loop (parse_member (parse_value (m + 4))) '\x7d' (s.length + 1) ('"' :: s)).map
        fun (ms, s) ↦ (.object ms.reverse, s) := rfl
  refine ⟨m + 2, m, ?_⟩
  have hlen := hm
  rw [toList_enqueue_member, List.length_cons, List.length_cons] at hlen
  rw [picojson.parse, hm, toList_enqueue_member, hobject, Nat.succ.inj hlen,
    parse_loop_comma hpayload, Option.map_map, Option.map_map]
  rfl

/-- Plain users are read back. -/
theorem parse_users (hplain : ∀ u ∈ uids, PlainText u) :
    parse_member (parse_value (depth + 2)) (users_text uids peer) =
      some (("u", .array (uids.map .string)), ',' :: peer_text peer) := by
  have hbracket (s : List Char) :
      parse_value (depth + 2) ('[' :: s) = parse_array (parse_value (depth + 1)) s := rfl
  rw [users_text, parse_member_char (by decide), hbracket]
  cases uids with
  | nil => rfl
  | cons uid uids =>
    have hquote (s : List Char) : parse_array (parse_value (depth + 1)) ('"' :: s) =
        (parse_loop (parse_value (depth + 1)) ']' (s.length + 1) ('"' :: s)).map
          fun r ↦ (.array r.1, r.2) := rfl
    rw [toList_append_uids_first]
    simp only [List.cons_append, List.append_assoc]
    have hfuel := length_le_uids_width uids
    rw [hquote, parse_uids hplain ?_]
    · rfl
    · rw [← length_append_uids_next] at hfuel
      simp only [List.length_append, List.length_cons]
      omega

/-- A plain peer is read back. -/
theorem parse_peer (hplain : PlainText peer) :
    parse_member (parse_value (depth + 1)) (peer_text peer) =
      some (("p", .string peer), ['\x7d']) := by
  rw [peer_text, parse_member_char (by decide), parse_value_quote, parse_string_plain hplain]
  simp only [Option.map_some, String.ofList_toList]

/-- A field of another name than the first comes later. -/
theorem mem_of_name_ne {k k' : String} {v v' : JsonValue} (h : (k, v) ∈ (k', v') :: ms)
    (hne : k ≠ k') : (k, v) ∈ ms :=
  (List.mem_cons.1 h).resolve_left fun heq ↦ hne (Prod.mk.inj heq).1

/-- What is looked up in the fields is one of them. -/
theorem mem_of_lookup_reverse {k : String} {v : JsonValue} (h : ms.reverse.lookup k = some v) :
    (k, v) ∈ ms := by
  obtain ⟨l₁, l₂, heq, -⟩ := List.lookup_eq_some_iff.1 h
  rw [← List.mem_reverse, heq]
  exact List.mem_append_right _ List.mem_cons_self

/-- Two of the fields. -/
theorem add_le_sum_of_mem {α : Type} {a b : α} {l : List α} (f : α → ℕ) (ha : a ∈ l) (hb : b ∈ l)
    (hne : a ≠ b) : f a + f b ≤ (l.map f).sum := by
  classical
  rw [← List.sum_map_erase f ha]
  have hb' : f b ∈ (l.erase a).map f := List.mem_map_of_mem ((List.mem_erase_of_ne hne.symm).2 hb)
  exact Nat.add_le_add_left (List.le_sum_of_mem hb') _

theorem member_width_peer (peer : String) :
    member_width ("p", .string peer) = peer.toList.length + 6 := by
  have hname : "p".toList.length = 1 := rfl
  rw [member_width, width, hname]
  omega

theorem member_width_users (es : List JsonValue) :
    member_width ("u", .array es) = (es.map fun e ↦ elem_width e + 1).sum + 5 := by
  have hname : "u".toList.length = 1 := rfl
  rw [member_width, width, hname]
  omega

/-- **A peer that is read back is plain**: a field of its length does not fit behind the one that
was written. -/
theorem plain_of_parse_peer
    (h : parse_loop (parse_member (parse_value (depth + 1))) '\x7d' (n + 1) (peer_text peer) =
      some (ms, r))
    (hpeer : peer ≠ "" → ("p", .string peer) ∈ ms) : PlainText peer := by
  have hwidth := (parse_loop_width (takes_parse_member (takes_parse_value _)) h).2
  obtain ⟨⟨m, s⟩, hm, htail⟩ := Option.bind_eq_some_iff.1 h
  rw [peer_text, parse_member_char (by decide), parse_value_quote, Option.map_map] at hm
  obtain ⟨⟨text, s'⟩, hread, heq⟩ := Option.map_eq_some_iff.1 hm
  obtain ⟨rfl, rfl⟩ := Prod.mk.inj heq
  obtain ⟨ms', rfl⟩ := exists_cons_of_tail htail
  cases parse_string_quoted hread with
  | same hplain _ _ => exact hplain
  | shorter hshort =>
    have hne : peer ≠ "" := by
      rintro rfl
      cases hshort
    rcases List.mem_cons.1 (hpeer hne) with hwritten | hlater
    · rw [JsonValue.string.inj (Prod.mk.inj hwritten).2, String.toList_ofList] at hshort
      exact absurd hshort (lt_irrefl _)
    · have hlater' :=
        List.le_sum_of_mem (List.mem_map_of_mem (f := fun m ↦ member_width m + 1) hlater)
      rw [member_width_peer] at hlater'
      rw [List.map_cons, List.sum_cons, peer_text] at hwidth
      simp only [List.length_cons, List.length_append, List.length_nil] at hwidth
      omega
  | beyond w v' _ _ hread' =>
    rw [parse_string_plain_cons (by decide), parse_string_nil] at hread'
    cases hread'

/-- **Users that are read back are plain**, and the field of the peer follows: two fields of their
length do not fit in the text. -/
theorem plain_of_parse_users
    (h : parse_loop (parse_member (parse_value (depth + 2))) '\x7d' (n + 1) (users_text uids peer) =
      some (ms, r))
    (huids : uids ≠ [] → ∃ es, ("u", .array es) ∈ ms ∧ es.filterMap JsonValue.string? = uids)
    (hpeer : peer ≠ "" → ("p", .string peer) ∈ ms) :
    (∀ u ∈ uids, PlainText u) ∧ ∃ v ms', ms = ("u", v) :: ms' ∧
      parse_loop (parse_member (parse_value (depth + 2))) '\x7d' n (peer_text peer) =
        some (ms', r) := by
  have hwidth := (parse_loop_width (takes_parse_member (takes_parse_value _)) h).2
  have hbracket (s : List Char) :
      parse_value (depth + 2) ('[' :: s) = parse_array (parse_value (depth + 1)) s := rfl
  obtain ⟨⟨m, s⟩, hm, htail⟩ := Option.bind_eq_some_iff.1 h
  rw [users_text, parse_member_char (by decide), hbracket] at hm
  obtain ⟨⟨v, s'⟩, harray, heq⟩ := Option.map_eq_some_iff.1 hm
  obtain ⟨rfl, rfl⟩ := Prod.mk.inj heq
  have hfollows : s' = ',' :: peer_text peer → ∃ v' ms', ms = ("u", v') :: ms' ∧
      parse_loop (parse_member (parse_value (depth + 2))) '\x7d' n (peer_text peer) =
        some (ms', r) := by
    rintro rfl
    obtain ⟨⟨ms', r'⟩, hms, heq⟩ := Option.map_eq_some_iff.1 htail
    obtain ⟨rfl, rfl⟩ := Prod.mk.inj heq
    exact ⟨v, ms', rfl, hms⟩
  cases uids with
  | nil =>
    obtain ⟨-, rfl⟩ := Prod.mk.inj (Option.some.inj harray)
    exact ⟨fun u hu ↦ absurd hu List.not_mem_nil, hfollows rfl⟩
  | cons uid uids =>
    obtain ⟨ms', rfl⟩ := exists_cons_of_tail htail
    rw [toList_append_uids_first] at harray
    simp only [List.cons_append, List.append_assoc] at harray
    obtain ⟨⟨es, s''⟩, hes, heq⟩ := Option.map_eq_some_iff.1 harray
    obtain ⟨rfl, rfl⟩ := Prod.mk.inj heq
    obtain ⟨es', hfield, hes'⟩ := huids (List.cons_ne_nil _ _)
    rcases List.mem_cons.1 hfield with hwritten | hlater
    · obtain rfl := JsonValue.array.inj (Prod.mk.inj hwritten).2
      have hclose : ∀ v' r', parse_string (']' :: ',' :: peer_text peer) = some (v', r') →
          v'.getLast? ≠ some '\\' := by
        intro v' r' hv'
        rw [parse_string_plain_cons (by decide), peer_text, parse_string_char (by decide)] at hv'
        obtain ⟨rfl, -⟩ := Prod.mk.inj (Option.some.inj hv')
        decide
      obtain ⟨hplain, rfl⟩ := plain_of_parse_uids hclose hes hes'
      exact ⟨hplain, hfollows rfl⟩
    · have hmore : 2 ≤ (es.map fun e ↦ elem_width e + 1).sum := by
        obtain ⟨e, es, rfl⟩ := List.exists_cons_of_ne_nil
          (parse_loop_width ((takes_parse_value _).mono elem_width_le) hes).1
        have hpos := elem_width_pos e
        rw [List.map_cons, List.sum_cons]
        omega
      have hleast := uids_width_le hes'
      rw [List.map_cons, List.sum_cons, member_width_users, length_users_text] at hwidth
      by_cases hempty : peer = ""
      · have hlater' :=
          List.le_sum_of_mem (List.mem_map_of_mem (f := fun m ↦ member_width m + 1) hlater)
        rw [member_width_users] at hlater'
        rw [hempty, String.toList_empty, List.length_nil] at hwidth
        omega
      · have hpeer' : ("p", .string peer) ∈ ms' := mem_of_name_ne (hpeer hempty) (by decide)
        have hlater' := add_le_sum_of_mem (fun m ↦ member_width m + 1) hlater hpeer'
          fun h ↦ absurd (Prod.mk.inj h).1 (by decide)
        rw [member_width_users, member_width_peer] at hlater'
        omega

end Fields

/-! ### The member -/

section Member

variable {EVP_DecodeBlock : String → Option (List UInt8)} {b64 peer : String} {uids : List String}

/-- The reaper's libraries; the JSON parser is picojson. -/
def outbox_libs (EVP_DecodeBlock : String → Option (List UInt8)) : OutboxLibs where
  picojson_parse := picojson.parse
  EVP_DecodeBlock := EVP_DecodeBlock

section Read

variable {obj : List (String × JsonValue)} {k : String}

/-- Users that are read stand in an array. -/
theorem array_of_read
    (h : (((obj.lookup k).bind JsonValue.array?).getD []).filterMap JsonValue.string? = uids)
    (hne : uids ≠ []) :
    ∃ es, obj.lookup k = some (.array es) ∧ es.filterMap JsonValue.string? = uids := by
  cases hv : (obj.lookup k).bind JsonValue.array? with
  | none =>
    rw [hv] at h
    exact absurd h.symm hne
  | some es =>
    obtain ⟨v, hlookup, harray⟩ := Option.bind_eq_some_iff.1 hv
    rw [hv] at h
    cases v with
    | array es' =>
      obtain rfl := Option.some.inj harray
      exact ⟨es', hlookup, h⟩
    | string s => cases harray
    | object fields => cases harray
    | other => cases harray

/-- A text that is read stands in a string. -/
theorem string_of_read {s : String} (h : ((obj.lookup k).bind JsonValue.string?).getD "" = s)
    (hne : s ≠ "") : obj.lookup k = some (.string s) := by
  cases hv : (obj.lookup k).bind JsonValue.string? with
  | none =>
    rw [hv] at h
    exact absurd h.symm hne
  | some s' =>
    obtain ⟨v, hlookup, hstring⟩ := Option.bind_eq_some_iff.1 hv
    rw [hv, Option.getD_some] at h
    cases v with
    | string s'' =>
      obtain rfl := Option.some.inj hstring
      rw [hlookup, h]
    | array es => cases hstring
    | object fields => cases hstring
    | other => cases hstring

end Read

theorem picojson_parse_outbox_libs :
    (outbox_libs EVP_DecodeBlock).picojson_parse = picojson.parse := rfl

/-- What a member of plain texts is parsed to. -/
theorem parse_of_plain (hb : PlainText b64) (hplain : ∀ u ∈ uids, PlainText u)
    (hpeer : PlainText peer) :
    picojson.parse (enqueue_member b64 uids peer) = some
      (.object [("p", .string peer), ("u", .array (uids.map .string)), ("k", .string b64)]) := by
  obtain ⟨depth, n, hparse⟩ := parse_enqueue_member hb uids peer
  have hlast : parse_loop (parse_member (parse_value (depth + 2))) '\x7d' (n + 1) (peer_text peer) =
      some ([("p", .string peer)], []) := by
    rw [parse_loop, parse_peer hpeer]
    rfl
  rw [hparse, parse_loop_comma (parse_users hplain), hlast]
  rfl

/-- Plain texts are read back. -/
theorem member_of_plain (hne : b64 ≠ "") (hb : PlainText b64) (hplain : ∀ u ∈ uids, PlainText u)
    (hpeer : PlainText peer) :
    parse_outbox_member (outbox_libs EVP_DecodeBlock) (enqueue_member b64 uids peer) =
      some { b64, uids, peer } := by
  have hstrings : (uids.map JsonValue.string).filterMap JsonValue.string? = uids := by
    rw [List.filterMap_map]
    exact List.filterMap_some
  rw [parse_outbox_member, picojson_parse_outbox_libs, parse_of_plain hb hplain hpeer]
  have hk : ([("p", .string peer), ("u", .array (uids.map .string)), ("k", .string b64)] :
      List (String × JsonValue)).lookup "k" = some (.string b64) := by simp [List.lookup]
  have hp : ([("p", .string peer), ("u", .array (uids.map .string)), ("k", .string b64)] :
      List (String × JsonValue)).lookup "p" = some (.string peer) := by simp
  have hu : ([("p", .string peer), ("u", .array (uids.map .string)), ("k", .string b64)] :
      List (String × JsonValue)).lookup "u" = some (.array (uids.map .string)) := by
    simp [List.lookup]
  dsimp only
  rw [hk, hp, hu]
  simp only [Option.bind_some, JsonValue.string?, JsonValue.array?, Option.getD_some, hstrings,
    if_neg hne]

/-- **Only plain texts are read back.** -/
theorem plain_of_member (hb : PlainText b64)
    (h : parse_outbox_member (outbox_libs EVP_DecodeBlock) (enqueue_member b64 uids peer) =
      some { b64, uids, peer }) : (∀ u ∈ uids, PlainText u) ∧ PlainText peer := by
  obtain ⟨depth, n, hparse⟩ := parse_enqueue_member hb uids peer
  rw [parse_outbox_member, picojson_parse_outbox_libs, hparse] at h
  cases hloop : parse_loop (parse_member (parse_value (depth + 2))) '\x7d' (n + 2)
    (users_text uids peer) with
  | none =>
    rw [hloop] at h
    cases h
  | some res =>
    obtain ⟨ms, r⟩ := res
    rw [hloop] at h
    dsimp only [Option.map_some] at h
    split at h
    · cases h
    obtain ⟨-, huids, hpeer⟩ := OutboxMember.mk.inj (Option.some.inj h)
    have husers : uids ≠ [] → ∃ es, ("u", .array es) ∈ ms ∧
        es.filterMap JsonValue.string? = uids := by
      intro hne
      obtain ⟨es, hes, heq⟩ := array_of_read huids hne
      exact ⟨es, mem_of_name_ne (mem_of_lookup_reverse hes) (by decide), heq⟩
    have hlast : peer ≠ "" → ("p", .string peer) ∈ ms := by
      intro hne
      exact mem_of_name_ne (mem_of_lookup_reverse (string_of_read hpeer hne)) (by decide)
    obtain ⟨hplain, v, ms', rfl, hrest⟩ := plain_of_parse_users hloop husers hlast
    exact ⟨hplain, plain_of_parse_peer hrest fun hne ↦ mem_of_name_ne (hlast hne) (by decide)⟩

end Member

/-- **Exactly which members are read back.** For every payload in base64, all user ids and every
peer: the reaper reads from the member that `enqueue` builds the same payload, the same ids in the
same order and the same peer, exactly when neither an id nor the peer has a quote, a backslash or a
control character in it. -/
theorem outbox_member_codec (EVP_DecodeBlock : String → Option (List UInt8)) (b64 : String)
    (uids : List String) (peer : String) (hne : b64 ≠ "") (hb : IsBase64 b64) :
    parse_outbox_member (outbox_libs EVP_DecodeBlock) (enqueue_member b64 uids peer) =
        some { b64, uids, peer } ↔
      (∀ uid ∈ uids, PlainText uid) ∧ PlainText peer :=
  ⟨plain_of_member hb.plain, fun h ↦ member_of_plain hne hb.plain h.1 h.2⟩

/-- The member for ann and bob is read back. -/
theorem outbox_member_codec_ann_bob :
    parse_outbox_member (outbox_libs bobLibs.EVP_DecodeBlock)
        (enqueue_member "CgA=" ["ann", "bob"] "B") =
      some { b64 := "CgA=", uids := ["ann", "bob"], peer := "B" } :=
  (outbox_member_codec _ "CgA=" ["ann", "bob"] "B" (by decide) (by decide)).2 (by decide)

/-- A quote in an id ends the text too early, and the reaper cannot read the member. -/
theorem outbox_member_dropped :
    "CgA=" ≠ "" ∧ IsBase64 "CgA=" ∧ parse_outbox_member (outbox_libs bobLibs.EVP_DecodeBlock)
      (enqueue_member "CgA=" ["a\"b"] "B") = none :=
  ⟨by decide, by decide, by decide +kernel⟩

end ChatNow
