import ChatNow.Common.Uuid
import ChatNow.Identity.Tokens
import ChatNow.Proto.Codec

/-!
# The frame of an RPC

What stands around the handlers of the services: the metadata that come with a call
(`proto/common/auth/metadata.proto`, `common/auth/auth_context.hpp`), the macro `HANDLE_RPC` of
`common/error/handle_rpc.hpp`, and the trace ids of `common/utils/trace_id.hpp`.

A handler learns who calls it from the metadata alone. `extract_auth` refuses metadata that lack a
user or a device, and `HANDLE_RPC` runs a handler only when it does not; `forward_auth_metadata`
gives a call that the handler makes the bytes of its own metadata. So whoever has written the
metadata of the first call has named the user for all calls behind it (`extract_auth_serialize`).
-/

namespace ChatNow

open Wire MessageCodec ValueCodec

/-! ### Metadata -/

/-- The `AuthContext` of a handler, with the trace id that only its log lines use. -/
structure TracedContext extends AuthContext where
  trace_id : String
  deriving DecidableEq

/-- What `extract_auth` throws. -/
def auth_missing : ServiceError :=
  ⟨error.kSystemInternalError, "missing auth metadata: user_id/device_id required"⟩

/-- What is read of metadata. -/
def RpcMetadata.context (m : RpcMetadata) : TracedContext where
  user_id := m.user_id
  device_id := m.device_id
  jwt_jti := m.jwt_jti
  trace_id := m.trace_id

/-- `extract_auth`, of the attachment of a call. -/
def extract_auth (attachment : List UInt8) : Except ServiceError TracedContext :=
  match RpcMetadata.codec.parse attachment with
  | none => .error auth_missing
  | some m => if m.user_id = "" ∨ m.device_id = "" then .error auth_missing else .ok m.context

/-- `forward_auth_metadata`: the attachment of a call that a handler makes, whatever was there. -/
def forward_auth_metadata (inbound _outbound : List UInt8) : List UInt8 := inbound

/-- The attachment at the end of a chain of calls, each made by the handler of the one before. -/
def forwarded (attachment : List UInt8) (calls : List (List UInt8)) : List UInt8 :=
  calls.foldl forward_auth_metadata attachment

/-- All handlers of a chain of calls see the attachment of the first call. -/
theorem forwarded_eq (attachment : List UInt8) (calls : List (List UInt8)) :
    forwarded attachment calls = attachment := by
  induction calls with
  | nil => rfl
  | cons call calls ih => exact ih

/-- **A handler acts for the user whom the metadata name**, however many calls lie between. -/
theorem extract_auth_serialize (m : RpcMetadata) (calls : List (List UInt8)) :
    extract_auth (forwarded (RpcMetadata.codec.serialize m) calls) =
      if m.user_id = "" ∨ m.device_id = "" then .error auth_missing else .ok m.context := by
  rw [forwarded_eq, extract_auth, MessageCodec.parse_serialize]

/-! ### `HANDLE_RPC` -/

/-- What a handler may throw. -/
inductive RpcThrown
  | service (e : ServiceError)
  | other

/-- The header of a failure. -/
def failed_header (request_id : String) (e : ServiceError) : ResponseHeader where
  request_id := request_id
  success := false
  error_code := e.code
  error_message := e.message

/-- The header that is written before the handler runs. -/
def success_header (request_id : String) : ResponseHeader where
  request_id := request_id
  success := true
  error_code := error.kOK

/-- `HANDLE_RPC`: the header of the response, and what the handler has made of `σ`, which is the
rest of the response and all that it can reach. -/
def HANDLE_RPC {σ : Type} (attachment : List UInt8) (request_id : String)
    (body : TracedContext → σ → Except RpcThrown Unit × σ) (s : σ) : ResponseHeader × σ :=
  match extract_auth attachment with
  | .error e => (failed_header request_id e, s)
  | .ok auth =>
    match body auth s with
    | (.ok (), s') => (success_header request_id, s')
    | (.error (.service e), s') => (failed_header request_id e, s')
    | (.error .other, s') =>
      (failed_header request_id ⟨error.kSystemInternalError, "internal error"⟩, s')

section HandleRpc

variable {σ : Type} {attachment : List UInt8} {request_id : String}
  {body : TracedContext → σ → Except RpcThrown Unit × σ} {s : σ}

/-- Without a user nothing happens. -/
theorem HANDLE_RPC_of_error {e : ServiceError} (h : extract_auth attachment = .error e) :
    HANDLE_RPC attachment request_id body s = (failed_header request_id e, s) := by
  rw [HANDLE_RPC, h]

/-- A response says that it succeeded exactly when the handler has run for a user and has thrown
nothing. -/
theorem HANDLE_RPC_success_iff :
    (HANDLE_RPC attachment request_id body s).1.success = true ↔
      ∃ auth s', extract_auth attachment = .ok auth ∧ body auth s = (.ok (), s') := by
  rw [HANDLE_RPC]
  cases hauth : extract_auth attachment with
  | error e => simp [failed_header]
  | ok auth =>
    rcases hbody : body auth s with ⟨(_ | _) | _, s'⟩ <;>
      simp [hbody, failed_header, success_header]

end HandleRpc

/-! ### Trace ids -/

/-- `gen_trace_id`, with the two numbers that were drawn. -/
def gen_trace_id (hi lo : UInt64) : String :=
  String.ofList (hexText 16 hi.toNat ++ hexText 16 lo.toNat)

/-- `is_valid_trace_id`. -/
def is_valid_trace_id (s : String) : Bool :=
  s.toList.length = 32 &&
    s.toList.all fun c ↦ ('0' ≤ c && c ≤ '9') || ('a' ≤ c && c ≤ 'f')

theorem length_hexText (width n : ℕ) : (hexText width n).length = width := by
  induction width generalizing n with
  | zero => rfl
  | succ width ih => rw [hexText, List.length_append, ih, List.length_singleton]

/-- Numbers of the width are told apart by their digits. -/
theorem hexText_inj {width n m : ℕ} (hn : n < 16 ^ width) (hm : m < 16 ^ width)
    (h : hexText width n = hexText width m) : n = m := by
  induction width generalizing n m with
  | zero =>
    rw [pow_zero, Nat.lt_one_iff] at hn hm
    rw [hn, hm]
  | succ width ih =>
    rw [pow_succ] at hn hm
    obtain ⟨hinit, hlast⟩ := List.append_inj h (by rw [length_hexText, length_hexText])
    have hdiv := ih (Nat.div_lt_of_lt_mul (by omega)) (Nat.div_lt_of_lt_mul (by omega)) hinit
    have hdigit : ∀ a < 16, ∀ b < 16, Nat.digitChar a = Nat.digitChar b → a = b := by decide
    have hmod := hdigit _ (Nat.mod_lt n (by decide)) _ (Nat.mod_lt m (by decide))
      (List.singleton_inj.1 hlast)
    omega

/-- What is generated is valid. -/
theorem is_valid_gen_trace_id (hi lo : UInt64) : is_valid_trace_id (gen_trace_id hi lo) = true := by
  have hdigits : ∀ width n, (hexText width n).all
      (fun c ↦ ('0' ≤ c && c ≤ '9') || ('a' ≤ c && c ≤ 'f')) = true := by
    intro width
    induction width with
    | zero => exact fun _ ↦ rfl
    | succ width ih =>
      intro n
      have hall : ∀ d < 16, ((('0' ≤ Nat.digitChar d) && (Nat.digitChar d ≤ '9')) ||
        (('a' ≤ Nat.digitChar d) && (Nat.digitChar d ≤ 'f'))) = true := by decide
      rw [hexText, List.all_append, ih, List.all_cons, hall _ (Nat.mod_lt n (by decide))]
      rfl
  rw [is_valid_trace_id, gen_trace_id, String.toList_ofList, List.all_append, hdigits, hdigits,
    List.length_append, length_hexText, length_hexText]
  rfl

/-- Different draws make different trace ids. -/
theorem gen_trace_id_inj {hi lo hi' lo' : UInt64} (h : gen_trace_id hi lo = gen_trace_id hi' lo') :
    hi = hi' ∧ lo = lo' := by
  have hlist := congrArg String.toList h
  rw [gen_trace_id, gen_trace_id, String.toList_ofList, String.toList_ofList] at hlist
  obtain ⟨hhi, hlo⟩ := List.append_inj hlist (by rw [length_hexText, length_hexText])
  have hlt : ∀ v : UInt64, v.toNat < 16 ^ 16 := fun v ↦ v.toNat_lt
  exact ⟨UInt64.toNat_inj.1 (hexText_inj (hlt _) (hlt _) hhi),
    UInt64.toNat_inj.1 (hexText_inj (hlt _) (hlt _) hlo)⟩

end ChatNow
