import ChatNow.Identity.Machine
import ChatNow.Identity.EsReplay
import ChatNow.Lib.Implement
import ChatNow.Lib.Pool
import ChatNow.Lib.Table
import ChatNow.UserInfo.Resolve

/-!
# Accounts

`Register`, `Login` and `UpdateProfile` of `identity/source/identity_server.h` over the table of
`mysql_user.hpp`, with the passwords of `bcrypt_util.hpp`. `Login` is that of `Tokens.lean`, its
question for the credentials answered by the table (`account_op`).

A user is looked up by a nickname, which nothing keeps unique: two calls of `Register` may both find
it free, and `UpdateProfile` does not look. When there are several rows, any of them may be found.
`UpdateProfile` writes back the whole row that it has read, the password with it. All the same a
password is never changed, and whoever gets tokens for a user has shown the password with which this
user registered (`tokens_need_password`).
-/

namespace ChatNow

open Prog

/-! ### Passwords -/

/-- The bcrypt library. A text is passed on as far as its first NUL. -/
structure PasswordLib where
  /-- `bcrypt_hashpw`, with the salt. -/
  hashpw : String → String → String
  /-- `bcrypt_checkpw`. -/
  checkpw : String → String → Bool

/-- `c_str`. -/
def password_bytes (pw : String) : List UInt8 := pw.toUTF8.data.toList.takeWhile (· ≠ 0)

/-- Only the same password is accepted, of which bcrypt reads 72 bytes. -/
structure PasswordLib.Lawful (lib : PasswordLib) : Prop where
  same : ∀ pw pw' salt, lib.checkpw pw (lib.hashpw pw' salt) = true →
    (password_bytes pw).take 72 = (password_bytes pw').take 72

/-- `check_password`. -/
def PasswordLib.check_password (lib : PasswordLib) (pw hash : String) : Bool :=
  pw ≠ "" && hash ≠ "" && lib.checkpw pw hash

/-- `password_check`. -/
def password_check (password : String) : Bool :=
  6 ≤ password.utf8ByteSize && password.utf8ByteSize ≤ 15 &&
    password.toList.all fun c ↦ c.isAlpha || c.isDigit || c = '_' || c = '-'

/-- bcrypt reads the whole of a password that may be registered. -/
theorem PasswordLib.Lawful.eq_of_check {lib : PasswordLib} (h : lib.Lawful) {pw pw' salt : String}
    (hcheck : lib.check_password pw (lib.hashpw pw' salt) = true)
    (hpw' : password_check pw' = true) : password_bytes pw = password_bytes pw' := by
  have hsame := h.same pw pw' salt (by
    simp only [check_password, Bool.and_eq_true] at hcheck
    exact hcheck.2)
  have hshort : (password_bytes pw').length ≤ 15 := by
    simp only [password_check, Bool.and_eq_true, decide_eq_true_eq] at hpw'
    calc (password_bytes pw').length ≤ pw'.toUTF8.data.toList.length :=
          (List.takeWhile_prefix _).length_le
      _ = pw'.utf8ByteSize := by simp
      _ ≤ 15 := hpw'.1.2
  rw [List.take_of_length_le (by omega : (password_bytes pw').length ≤ 72)] at hsame
  rw [← hsame, List.take_of_length_le]
  have hlen := congrArg List.length hsame
  rw [List.length_take] at hlen
  omega

/-! ### Rows -/

/-- A row of `user`, with the columns that the RPCs read or write. -/
structure AccountRow where
  user_id : String
  nickname : Option String := none
  description : Option String := none
  password : Option String := none
  mail : Option String := none
  phone : Option String := none
  avatar_id : Option String := none
  deriving DecidableEq

/-- What `UpdateProfile` sets. -/
def UpdateProfileReq.write (req : UpdateProfileReq) (row : AccountRow) : AccountRow :=
  { row with
    nickname := req.nickname <|> row.nickname
    description := req.bio <|> row.description
    avatar_id := req.avatar_file_id <|> row.avatar_id
    phone := req.phone <|> row.phone }

/-- The row as its accessors show it, an empty column as the empty text. -/
def AccountRow.user (row : AccountRow) : User where
  user_id := row.user_id
  nickname := row.nickname.getD ""
  description := row.description.getD ""
  phone := row.phone.getD ""
  avatar_id := row.avatar_id.getD ""

/-- The profile that is written back is the one that the user-info cache is about. -/
theorem AccountRow.user_write (req : UpdateProfileReq) (row : AccountRow) :
    (req.write row).user = req.apply row.user := by
  simp [AccountRow.user, UpdateProfileReq.write, UpdateProfileReq.apply]

/-- What `append_data` puts into the index. -/
def AccountRow.doc (row : AccountRow) : UserDoc where
  uid := row.user_id
  mail := row.mail.getD ""
  phone := row.phone.getD ""
  nickname := row.nickname.getD ""
  description := row.description.getD ""
  avatar_id := row.avatar_id.getD ""

/-- The rows have a mail or a phone in common. -/
def AccountRow.clashes (r s : AccountRow) : Bool :=
  r.mail.isSome && r.mail = s.mail || r.phone.isSome && r.phone = s.phone

/-! ### The text -/

/-- `RegisterReq`. -/
structure RegisterReq where
  credential : Credential
  nickname : String := ""
  deriving DecidableEq

/-- The operations of the RPCs on accounts. -/
inductive AccountOp
  /-- `select_by_nickname`. -/
  | selectByNickname (nickname : String)
  /-- `select_by_id`. -/
  | selectById (user_id : String)
  /-- `uuid`. -/
  | uuid
  /-- `bcrypt_gensalt`. -/
  | gensalt
  /-- `UserTable::insert`. -/
  | insert (row : AccountRow)
  /-- `UserTable::update`. -/
  | update (row : AccountRow)
  /-- `retry_es_write_`, of `append_data`. -/
  | esWrite (doc : UserDoc)
  /-- `UserInfoCache::invalidate`. -/
  | invalidate (user_id : String)
  /-- An operation on tokens. -/
  | auth (o : AuthOp)
  /-- The response of `UpdateProfile` is sent. -/
  | profile (rsp : Except ServiceError AccountRow)

/-- What each operation answers. -/
@[reducible]
def AccountOp.Res : AccountOp → Type
  | selectByNickname _ => Option AccountRow
  | selectById _ => Option AccountRow
  | uuid => String
  | gensalt => Option String
  | insert _ => Bool
  | update _ => Bool
  | esWrite _ => Unit
  | invalidate _ => Unit
  | auth o => o.Res
  | profile _ => Unit

/-- Programs of the identity service. -/
abbrev AccountM := Prog AccountOp AccountOp.Res

section Text

variable (cfg : JwtConfig) (lib : PasswordLib)

/-- What `Login` asks for: the user with the nickname, if the password is right. -/
def check_credentials (username password : String) : AccountM (Option (String × String)) := do
  match ← op (AccountOp.selectByNickname username) with
  | none => return none
  | some user =>
    if lib.check_password password (user.password.getD "") then
      return some (user.user_id, user.nickname.getD "")
    else return none

/-- The operations on tokens, of which one asks the table. -/
def account_op : (o : AuthOp) → AccountM o.Res
  | .credentials username password => check_credentials lib username password
  | o => op (AccountOp.auth o)

/-- A response with tokens, or an error. -/
def respond_tokens (rsp : Except ServiceError AuthRsp) : AccountM Unit :=
  op (AccountOp.auth (.respond rsp))

/-- The row of a new user. -/
def new_user (user_id nickname hash : String) : AccountRow where
  user_id := user_id
  nickname := some nickname
  password := some hash

/-- What `Register` does with a nickname and a password that may be used. -/
def register_user (nickname password : String) : AccountM (Except ServiceError AuthRsp) := do
  let user_id ← op AccountOp.uuid
  match ← op AccountOp.gensalt with
  | none => return .error ⟨error.kSystemInternalError, "internal error"⟩
  | some salt =>
    let user := new_user user_id nickname (lib.hashpw password salt)
    if ← op (AccountOp.insert user) then
      op (AccountOp.esWrite user.doc)
      let rsp ← (login_user cfg user_id nickname "default_device").implement (account_op lib)
      return .ok rsp
    else return .error ⟨error.kSystemInternalError, "db insert failed"⟩

/-- The body of `Register`. -/
def register_body (req : RegisterReq) : AccountM (Except ServiceError AuthRsp) := do
  match req.credential with
  | .phone_code =>
    return .error ⟨error.kNotImplemented, "phone_code register not yet supported"⟩
  | .none => return .error ⟨error.kAuthInvalidCredentials, "no valid credential provided"⟩
  | .username_pwd _ password =>
    if !nickname_check req.nickname then
      return .error ⟨error.kAuthInvalidCredentials, "nickname invalid"⟩
    if !password_check password then
      return .error ⟨error.kAuthInvalidCredentials, "password invalid"⟩
    match ← op (AccountOp.selectByNickname req.nickname) with
    | some _ => return .error ⟨error.kAuthUserAlreadyExists, "nickname already taken"⟩
    | none => register_user cfg lib req.nickname password

/-- `Register`. -/
def Register (req : RegisterReq) : AccountM Unit := do
  let rsp ← register_body cfg lib req
  respond_tokens rsp

/-- The body of `UpdateProfile`, for a caller that is logged in. -/
def update_profile_body (uid : String) (req : UpdateProfileReq) :
    AccountM (Except ServiceError AccountRow) := do
  match ← op (AccountOp.selectById uid) with
  | none => return .error ⟨error.kAuthUserNotFound, "user not found"⟩
  | some user =>
    if req.nickname.any (!nickname_check ·) then
      return .error ⟨error.kAuthInvalidCredentials, "nickname invalid"⟩
    let user := req.write user
    op (AccountOp.invalidate uid)
    if ← op (AccountOp.update user) then
      op (AccountOp.invalidate uid)
      op (AccountOp.esWrite user.doc)
      return .ok user
    else return .error ⟨error.kSystemInternalError, "db update failed"⟩

/-- A call. -/
inductive AccountCall
  | registers (req : RegisterReq)
  | logs_in (req : LoginReq)
  | updates (uid : String) (req : UpdateProfileReq)

/-- What a call does. -/
def AccountCall.text : AccountCall → AccountM Unit
  | registers req => Register cfg lib req
  | logs_in req => (Login cfg req).implement (account_op lib)
  | updates uid req => do
    let rsp ← update_profile_body uid req
    op (AccountOp.profile rsp)

end Text

/-! ### The machine -/

/-- An account, with the thread that has registered it and the password. -/
structure Registration where
  thread : ℕ
  user_id : String
  password : String
  deriving DecidableEq

/-- The table, and what has been done. -/
structure AccountState where
  /-- `user`. -/
  users : Table AccountRow.user_id := .empty
  /-- The calls, by thread. -/
  calls : List AccountCall := []
  /-- The accounts whose rows have been inserted. -/
  registered : List Registration := []
  /-- The responses about tokens, by thread. -/
  answers : List (ℕ × Except ServiceError AuthRsp) := []

/-- What an operation on tokens answers where nothing else is said. -/
def quiet_auth : (o : AuthOp) → o.Res
  | .clock => (0 : ℤ)
  | .verify _ _ => .error .other
  | .issue _ _ _ => ("", "")
  | .credentials _ _ => none
  | .setRevoked _ _ => .ok ()
  | .getRevoked _ => .ok false
  | .setActive _ _ _ _ => .ok ()
  | .getActive _ _ => .ok none
  | .delActive _ _ => .ok ()
  | .setChain _ _ => .ok true
  | .respond _ => ()

/-- What the environment decides at a call. -/
structure AccountChoice where
  /-- The call fails. -/
  fault : Bool := false
  /-- Its effect takes place all the same. -/
  late : Bool := false
  /-- Which of several rows is found. -/
  row : ℕ := 0
  uid : String := ""
  salt : Option String := some ""
  auth : (o : AuthOp) → o.Res := quiet_auth

/-- The effect of the call takes place. -/
def AccountChoice.acts (c : AccountChoice) : Bool := !c.fault || c.late

theorem AccountChoice.fault_of_not_acts {c : AccountChoice} (h : ¬c.acts = true) :
    c.fault = true := by
  cases hfault : c.fault with
  | true => rfl
  | false => exact absurd (by rw [acts, hfault]; rfl) h

namespace AccountState

/-- The rows that a nickname finds, as MySQL compares texts. -/
def named (collate : String → String) (s : AccountState) (nickname : String) : List AccountRow :=
  s.users.rows.filter fun r ↦ r.nickname.map collate = some (collate nickname)

/-- A unique column has the value of another user. -/
def taken (s : AccountState) (row : AccountRow) : Bool :=
  s.users.rows.any fun r ↦ r.user_id ≠ row.user_id && row.clashes r

/-- The account of thread `i`, with the password of its request. -/
def registers (s : AccountState) (i : ℕ) (user_id : String) : List Registration :=
  match s.calls[i]? with
  | some (.registers ⟨.username_pwd _ password, _⟩) => ⟨i, user_id, password⟩ :: s.registered
  | _ => s.registered

/-- The effect of a call by thread `i`. -/
def exec (collate : String → String) (i : ℕ) : (o : AccountOp) → AccountChoice → AccountState →
    Option (o.Res × AccountState)
  | .selectByNickname nickname, c, s =>
    some (if c.fault then none else (s.named collate nickname)[c.row]?, s)
  | .selectById user_id, c, s => some (if c.fault then none else s.users.find user_id, s)
  | .uuid, c, s => some (c.uid, s)
  | .gensalt, c, s => some (c.salt, s)
  | .insert row, c, s =>
    match s.users.insert row with
    | none => some (false, s)
    | some users =>
      if s.taken row then some (false, s)
      else some (!c.fault,
        if c.acts then { s with users, registered := s.registers i row.user_id } else s)
  | .update row, c, s =>
    if (s.users.find row.user_id).isNone || s.taken row then some (false, s)
    else some (!c.fault, if c.acts then { s with users := s.users.write row } else s)
  | .esWrite _, _, s => some ((), s)
  | .invalidate _, _, s => some ((), s)
  | .auth (.respond rsp), _, s => some ((), { s with answers := (i, rsp) :: s.answers })
  | .auth o, c, s => some (c.auth o, s)
  | .profile _, _, s => some ((), s)

end AccountState

/-- What can happen beside the calls. -/
inductive AccountEv
  /-- A request arrives. -/
  | arrive (c : AccountCall)
  /-- A thread is gone. -/
  | crash (i : ℕ)

abbrev AccountPool := Pool AccountOp AccountOp.Res AccountState

section Service

variable (cfg : JwtConfig) (lib : PasswordLib) (collate : String → String)

/-- The effect of an event. -/
def AccountState.env : AccountEv → AccountPool → Option AccountPool
  | .arrive c, p => some ⟨p.threads ++ [c.text cfg lib],
    { p.shared with calls := p.shared.calls ++ [c] }⟩
  | .crash i, p => some ⟨p.threads.set i (.ret ()), p.shared⟩

/-- The part of the identity service that is about accounts. -/
def accountService : Machine AccountOp AccountOp.Res AccountState AccountChoice AccountEv :=
  ⟨AccountState.exec collate, AccountState.env cfg lib⟩

end Service

/-! ### The contract -/

/-- How far a call has come. -/
inductive AccountPhase
  | idle
  /-- `Register` has an id for the user. -/
  | named (uid : String)
  /-- And a salt for the password. -/
  | salted (uid salt : String)
  /-- Its row is in the table. -/
  | inserted (uid : String)
  /-- A row has been read. -/
  | holds (row : AccountRow)

/-- A call, and how far it has come. -/
structure AccountThread where
  call : AccountCall
  phase : AccountPhase := .idle

section Contract

variable (lib : PasswordLib)

/-- The call may hand out tokens for the user. -/
def AccountThread.Entitled (t : AccountThread) (uid : String) : Prop :=
  match t.call, t.phase with
  | .registers _, .inserted u => u = uid
  | .logs_in req, .holds row => row.user_id = uid ∧ ∃ username password,
      req.credential = .username_pwd username password ∧
        lib.check_password password (row.password.getD "") = true
  | _, _ => False

/-- What a call may do, and what it gets. -/
def accountContract : Contract AccountOp AccountOp.Res AccountThread where
  allowed t o :=
    match o with
    | .insert row => ∃ username password nickname uid salt,
        t = ⟨.registers ⟨.username_pwd username password, nickname⟩, .salted uid salt⟩ ∧
          password_check password = true ∧
          row = new_user uid nickname (lib.hashpw password salt)
    | .update row => ∃ uid req row₀, t = ⟨.updates uid req, .holds row₀⟩ ∧ row = req.write row₀
    | .auth (.respond (.ok (.tokens _ (some user)))) => t.Entitled lib user.1
    | _ => True
  admits _ _ _ := True
  next t o r :=
    match o, r with
    | .selectByNickname _, r =>
      match t.call, r with
      | .logs_in _, some row => { t with phase := .holds row }
      | _, _ => t
    | .selectById _, some row => { t with phase := .holds row }
    | .uuid, uid => { t with phase := .named uid }
    | .gensalt, some salt =>
      match t.phase with
      | .named uid => { t with phase := .salted uid salt }
      | _ => t
    | .insert row, true => { t with phase := .inserted row.user_id }
    | _, _ => t

/-- `Login` as it looks from outside: tokens are for the user whose credentials were found. -/
def loginContract : Contract AuthOp AuthOp.Res (LoginReq × Option (String × String)) where
  allowed x o :=
    match o with
    | .credentials username password => x.1.credential = .username_pwd username password
    | .respond (.ok (.tokens _ (some user))) => x.2 = some user
    | _ => True
  admits _ _ _ := True
  next x o r :=
    match o, r with
    | .credentials _ _, r => (x.1, r)
    | _, _ => x

/-- The operations by which tokens are made. -/
def MakesTokens : AuthOp → Prop
  | .issue _ _ _ => True
  | .setActive _ _ _ _ => True
  | _ => False

variable {lib} {cfg : JwtConfig} {τ : Type}

/-- What `login_user` does, under any contract that ignores how tokens are made. -/
theorem login_user_tells {C : Contract AuthOp AuthOp.Res τ} (hC : C.Ignores MakesTokens) {t : τ}
    (user_id nickname device_id : String) :
    (login_user cfg user_id nickname device_id).Meets C t fun t' rsp ↦
      t' = t ∧ ∃ tokens, rsp = .tokens tokens (some (user_id, nickname)) := by
  refine meets_bind_of_ignores hC trivial fun access ↦ ?_
  refine meets_bind_of_ignores hC trivial fun refresh ↦ ?_
  have hput : (JwtStore.put_active_refresh user_id device_id refresh.1
      cfg.refresh_ttl_sec).Meets C t fun t' _ ↦ t' = t := by
    rw [JwtStore.put_active_refresh]
    split
    · rfl
    · exact meets_bind_of_ignores hC trivial fun _ ↦ rfl
  exact hput.bind fun t' _ ht ↦ ⟨ht, _, rfl⟩

theorem loginContract_ignores : loginContract.Ignores MakesTokens where
  allowed x o ho := by
    cases o with
    | issue _ _ _ | setActive _ _ _ _ => trivial
    | _ => exact ho.elim
  next x o r ho := by
    cases o with
    | issue _ _ _ | setActive _ _ _ _ => rfl
    | _ => exact ho.elim

theorem Login_meets_login (req : LoginReq) :
    (Login cfg req).Meets loginContract (req, none) fun _ _ ↦ True := by
  have hbody : (login_body cfg req).Meets loginContract (req, none) fun x rsp ↦
      ∀ tokens user, rsp = .ok (.tokens tokens (some user)) → x.2 = some user := by
    rw [login_body]
    cases hcred : req.credential with
    | none => rintro tokens user ⟨⟩
    | phone_code => rintro tokens user ⟨⟩
    | username_pwd username password =>
      refine meets_op_bind.2 ⟨hcred, fun found _ ↦ ?_⟩
      cases found with
      | none => rintro tokens user ⟨⟩
      | some user =>
        refine (login_user_tells loginContract_ignores user.1 user.2 _).bind fun x rsp hrsp ↦ ?_
        obtain ⟨rfl, tokens, rfl⟩ := hrsp
        rintro tokens' user' ⟨⟩
        rfl
  refine hbody.bind fun x rsp hrsp ↦ meets_op_bind.2 ⟨?_, fun _ _ ↦ trivial⟩
  rcases rsp with e | _ | ⟨tokens, _ | user⟩
  · trivial
  · trivial
  · trivial
  · exact hrsp tokens user rfl

/-- An operation by which tokens are made is passed on. -/
theorem account_op_meets {t : AccountThread} {o : AuthOp} (ho : MakesTokens o) :
    (account_op lib o).Meets (accountContract lib) t fun t' _ ↦ t' = t := by
  cases o with
  | issue _ _ _ | setActive _ _ _ _ => exact ⟨trivial, fun _ _ ↦ rfl⟩
  | _ => exact ho.elim

theorem check_credentials_meets {t : AccountThread} {req : LoginReq} {username password : String}
    (ht : t.call = .logs_in req) (hreq : req.credential = .username_pwd username password) :
    (check_credentials lib username password).Meets (accountContract lib) t fun t' r ↦
      t'.call = .logs_in req ∧ ∀ user, r = some user → t'.Entitled lib user.1 := by
  obtain ⟨call, phase⟩ := t
  obtain rfl : call = .logs_in req := ht
  refine meets_op_bind.2 ⟨trivial, fun found _ ↦ ?_⟩
  cases found with
  | none => exact ⟨rfl, fun user h ↦ by cases h⟩
  | some row =>
    show (ite _ _ _ : AccountM _).Meets _ _ _
    split
    · next hcheck =>
      refine ⟨rfl, ?_⟩
      rintro user ⟨⟩
      exact ⟨rfl, username, password, hreq, hcheck⟩
    · exact ⟨rfl, fun user h ↦ by cases h⟩

/-- `Login` over the table. -/
theorem login_text_meets (req : LoginReq) :
    ((Login cfg req).implement (account_op lib)).Meets (accountContract lib) ⟨.logs_in req, .idle⟩
      fun _ _ ↦ True := by
  -- a state of the interface stands for a call that may hand out tokens for whom it has found
  refine (Meets.implement (fun x t ↦ t.call = .logs_in x.1 ∧
    ∀ user, x.2 = some user → t.Entitled lib user.1) ?_ (Login_meets_login req)
    ⟨rfl, fun user h ↦ by cases h⟩).mono fun _ _ _ ↦ trivial
  rintro ⟨req, found⟩ t o ⟨hcall, hfound⟩ ho
  cases o with
  | credentials username password =>
    exact (check_credentials_meets hcall ho).mono fun t' r h ↦ ⟨trivial, h⟩
  | respond rsp =>
    refine ⟨?_, fun _ _ ↦ ⟨trivial, hcall, hfound⟩⟩
    rcases rsp with e | _ | ⟨tokens, _ | user⟩
    · trivial
    · trivial
    · trivial
    · exact hfound user ho
  | _ => exact ⟨trivial, fun _ _ ↦ ⟨trivial, hcall, hfound⟩⟩

/-- Tokens are made, and nothing else is done. -/
def tokensContract : Contract AuthOp AuthOp.Res Unit where
  allowed _ o := MakesTokens o
  admits _ _ _ := True
  next _ _ _ := ()

/-- What a response may be that a call has come to. -/
def AccountThread.MayRespond (lib : PasswordLib) (t : AccountThread)
    (rsp : Except ServiceError AuthRsp) : Prop :=
  ∀ tokens user, rsp = .ok (.tokens tokens (some user)) → t.Entitled lib user.1

theorem mayRespond_error (t : AccountThread) (e : ServiceError) : t.MayRespond lib (.error e) := by
  rintro tokens user ⟨⟩

theorem register_user_meets {username nickname password : String}
    (hpassword : password_check password = true) (phase : AccountPhase) :
    (register_user cfg lib nickname password).Meets (accountContract lib)
      ⟨.registers ⟨.username_pwd username password, nickname⟩, phase⟩
      fun t rsp ↦ t.MayRespond lib rsp := by
  refine meets_op_bind.2 ⟨trivial, fun uid _ ↦ meets_op_bind.2 ⟨trivial, fun salt _ ↦ ?_⟩⟩
  cases salt with
  | none => exact mayRespond_error _ _
  | some salt =>
    refine meets_op_bind.2 ⟨⟨username, password, nickname, uid, salt, rfl, hpassword, rfl⟩,
      fun inserted _ ↦ ?_⟩
    cases inserted with
    | false => exact mayRespond_error _ _
    | true =>
      refine meets_op_bind.2 ⟨trivial, fun _ _ ↦ ?_⟩
      have hlogin : (login_user cfg uid nickname "default_device").Meets tokensContract () _ :=
        login_user_tells ⟨fun _ _ ho ↦ ho, fun _ _ _ _ ↦ rfl⟩ uid nickname "default_device"
      refine (hlogin.implement (fun _ t ↦ t = ⟨.registers ⟨.username_pwd username password,
        nickname⟩, .inserted uid⟩) ?_ rfl).bind ?_
      · rintro u t o rfl ho
        exact (account_op_meets ho).mono fun t' r ht' ↦ ⟨trivial, ht'⟩
      · rintro t rsp ⟨-, rfl, -, tokens, rfl⟩
        rintro tokens' user ⟨⟩
        rfl

theorem Register_meets (req : RegisterReq) :
    (Register cfg lib req).Meets (accountContract lib) ⟨.registers req, .idle⟩
      fun _ _ ↦ True := by
  have hbody : (register_body cfg lib req).Meets (accountContract lib) ⟨.registers req, .idle⟩
      fun t rsp ↦ t.MayRespond lib rsp := by
    obtain ⟨credential, nickname⟩ := req
    cases credential with
    | none => exact mayRespond_error _ _
    | phone_code => exact mayRespond_error _ _
    | username_pwd username password =>
      rw [register_body]
      by_cases hnick : nickname_check nickname = true
      · by_cases hpassword : password_check password = true
        · simp only [hnick, hpassword, Bool.not_true, Bool.false_eq_true, if_false]
          refine meets_op_bind.2 ⟨trivial, fun found _ ↦ ?_⟩
          cases found with
          | some row => exact mayRespond_error _ _
          | none => exact register_user_meets hpassword _
        · simp only [hnick, Bool.eq_false_iff.2 hpassword, Bool.not_true, Bool.not_false,
            Bool.false_eq_true, if_false, if_true]
          exact mayRespond_error _ _
      · simp only [Bool.eq_false_iff.2 hnick, Bool.not_false, if_true]
        exact mayRespond_error _ _
  refine hbody.bind fun t rsp hrsp ↦ ⟨?_, fun _ _ ↦ trivial⟩
  rcases rsp with e | _ | ⟨tokens, _ | user⟩
  · trivial
  · trivial
  · trivial
  · exact hrsp tokens user rfl

theorem update_profile_meets (uid : String) (req : UpdateProfileReq) :
    (update_profile_body uid req).Meets (accountContract lib) ⟨.updates uid req, .idle⟩
      fun _ _ ↦ True := by
  refine meets_op_bind.2 ⟨trivial, fun found _ ↦ ?_⟩
  cases found with
  | none => trivial
  | some row =>
    show (ite _ _ _ : AccountM _).Meets _ _ _
    split
    · trivial
    · refine ⟨trivial, fun _ _ ↦ ⟨⟨uid, req, row, rfl, rfl⟩, fun written _ ↦ ?_⟩⟩
      cases written with
      | false => trivial
      | true => exact ⟨trivial, fun _ _ ↦ ⟨trivial, fun _ _ ↦ trivial⟩⟩

/-- **Every call meets the contract.** -/
theorem AccountCall.text_meets (c : AccountCall) :
    (c.text cfg lib).Meets (accountContract lib) ⟨c, .idle⟩ fun _ _ ↦ True := by
  cases c with
  | registers req => exact Register_meets req
  | logs_in req => exact login_text_meets req
  | updates uid req =>
    exact (update_profile_meets uid req).bind fun _ _ _ ↦ ⟨trivial, fun _ _ ↦ trivial⟩

end Contract

/-! ### The invariant -/

section Invariant

variable {cfg : JwtConfig} {lib : PasswordLib} {collate : String → String}
  {ts : List AccountThread} {s s' : AccountState} {i : ℕ} {t : AccountThread}

/-- The row has the password with which its user has registered. -/
def AccountState.Vouched (lib : PasswordLib) (s : AccountState) (row : AccountRow) : Prop :=
  ∃ g ∈ s.registered, g.user_id = row.user_id ∧ password_check g.password = true ∧
    ∃ salt, row.password = some (lib.hashpw g.password salt)

/-- The call has inserted the row of the user, or has shown the password of the user. -/
def AccountState.Proved (s : AccountState) (i : ℕ) (uid : String) : Prop :=
  ∃ g ∈ s.registered, g.user_id = uid ∧ (g.thread = i ∨ ∃ req username password,
    s.calls[i]? = some (.logs_in req) ∧ req.credential = .username_pwd username password ∧
      password_bytes password = password_bytes g.password)

/-- The account is that of a call of `Register`. -/
def AccountState.Requested (s : AccountState) (g : Registration) : Prop :=
  ∃ username nickname,
    s.calls[g.thread]? = some (.registers ⟨.username_pwd username g.password, nickname⟩)

/-- What holds of the calls and the table. -/
structure AccountInv (lib : PasswordLib) (ts : List AccountThread) (s : AccountState) : Prop where
  calls : s.calls = ts.map (·.call)
  rows : ∀ row ∈ s.users.rows, s.Vouched lib row
  held : ∀ t ∈ ts, ∀ row, t.phase = .holds row → s.Vouched lib row
  there : ∀ g ∈ s.registered, ∃ row ∈ s.users.rows, row.user_id = g.user_id
  once : (s.registered.map (·.user_id)).Nodup
  requested : ∀ g ∈ s.registered, s.Requested g
  inserted : ∀ i t uid, ts[i]? = some t → t.phase = .inserted uid →
    ∃ g ∈ s.registered, g.user_id = uid ∧ g.thread = i
  answers : ∀ i tokens user, (i, .ok (.tokens tokens (some user))) ∈ s.answers → s.Proved i user.1

theorem AccountState.Vouched.mono {row : AccountRow} (h : s.Vouched lib row)
    (hsub : s.registered ⊆ s'.registered) : s'.Vouched lib row := by
  obtain ⟨g, hg, hrest⟩ := h
  exact ⟨g, hsub hg, hrest⟩

theorem AccountState.Proved.mono {uid : String} (h : s.Proved i uid)
    (hsub : s.registered ⊆ s'.registered)
    (hcalls : ∀ c, s.calls[i]? = some c → s'.calls[i]? = some c) : s'.Proved i uid := by
  obtain ⟨g, hg, huid, hthread | ⟨req, username, password, hcall, hrest⟩⟩ := h
  · exact ⟨g, hsub hg, huid, .inl hthread⟩
  · exact ⟨g, hsub hg, huid, .inr ⟨req, username, password, hcalls _ hcall, hrest⟩⟩

/-- A thread moves on, and the table is as it was. -/
theorem AccountInv.moves (h : AccountInv lib ts s) (hi : ts[i]? = some t) (phase : AccountPhase)
    (hheld : ∀ row, phase = .holds row → s.Vouched lib row)
    (hinserted : ∀ uid, phase = .inserted uid →
      ∃ g ∈ s.registered, g.user_id = uid ∧ g.thread = i) :
    AccountInv lib (ts.set i { t with phase }) s := by
  refine { h with calls := ?_, held := ?_, inserted := ?_ }
  · rw [h.calls]
    exact (Pool.map_set_eq (u := { t with phase }) (f := AccountThread.call) hi rfl).symm
  · intro u hu row hrow
    rcases List.mem_or_eq_of_mem_set hu with hu | rfl
    · exact h.held u hu row hrow
    · exact hheld row hrow
  · intro j u uid hu huid
    rcases Pool.getElem?_set_cases hu with ⟨rfl, rfl⟩ | ⟨-, hu⟩
    · exact hinserted uid huid
    · exact h.inserted j u uid hu huid

/-- A thread stays where it is. -/
theorem AccountInv.stays (h : AccountInv lib ts s) (hi : ts[i]? = some t) :
    AccountInv lib (ts.set i t) s :=
  h.moves hi t.phase (fun row hrow ↦ h.held t (List.mem_of_getElem? hi) row hrow)
    (fun uid huid ↦ h.inserted i t uid hi huid)

/-- A row is inserted for a new user. -/
theorem AccountInv.inserts (h : AccountInv lib ts s) {username password nickname uid salt : String}
    {users : Table AccountRow.user_id}
    (hi : s.calls[i]? = some (.registers ⟨.username_pwd username password, nickname⟩))
    (hpassword : password_check password = true)
    (hins : s.users.insert (new_user uid nickname (lib.hashpw password salt)) = some users) :
    AccountInv lib ts { s with users, registered := ⟨i, uid, password⟩ :: s.registered } := by
  obtain ⟨hnone, hrows⟩ := Table.rows_of_insert hins
  have hsub : s.registered ⊆ ⟨i, uid, password⟩ :: s.registered := List.subset_cons_self _ _
  exact {
    calls := h.calls
    rows row hrow := by
      rw [hrows] at hrow
      rcases List.mem_append.1 hrow with hold | hnew
      · exact (h.rows row hold).mono hsub
      · obtain rfl := List.mem_singleton.1 hnew
        exact ⟨_, List.mem_cons_self, rfl, hpassword, salt, rfl⟩
    held t ht row hrow := (h.held t ht row hrow).mono hsub
    there g hg := by
      rw [hrows]
      rcases List.mem_cons.1 hg with rfl | hg
      · exact ⟨_, List.mem_append_right _ (List.mem_singleton_self _), rfl⟩
      · obtain ⟨row, hrow, huid⟩ := h.there g hg
        exact ⟨row, List.mem_append_left _ hrow, huid⟩
    once := by
      refine List.nodup_cons.2 ⟨fun hmem ↦ ?_, h.once⟩
      obtain ⟨g, hg, huid⟩ := List.mem_map.1 hmem
      obtain ⟨row, hrow, heq⟩ := h.there g hg
      exact (Table.find_eq_none _).1 hnone row hrow (heq.trans huid)
    requested g hg := by
      rcases List.mem_cons.1 hg with rfl | hg
      · exact ⟨username, nickname, hi⟩
      · exact h.requested g hg
    inserted j u uid' hu huid := by
      obtain ⟨g, hg, hrest⟩ := h.inserted j u uid' hu huid
      exact ⟨g, hsub hg, hrest⟩
    answers j tokens user hmem := (h.answers j tokens user hmem).mono hsub fun _ hc ↦ hc }

/-- A row is written back. -/
theorem AccountInv.writes (h : AccountInv lib ts s) {row : AccountRow} (hrow : s.Vouched lib row) :
    AccountInv lib ts { s with users := s.users.write row } := by
  refine { h with rows := ?_, there := ?_ }
  · intro r hr
    obtain ⟨r₀, hr₀, rfl⟩ := List.mem_map.1 hr
    split
    · exact hrow
    · exact h.rows r₀ hr₀
  · intro g hg
    obtain ⟨r, hr, huid⟩ := h.there g hg
    refine ⟨_, List.mem_map_of_mem hr, ?_⟩
    split
    · next heq => exact heq.symm.trans huid
    · exact huid

/-- Tokens are handed out. -/
theorem AccountInv.entitled (h : AccountInv lib ts s) (hlib : lib.Lawful) (hi : ts[i]? = some t)
    {uid : String} (ht : t.Entitled lib uid) : s.Proved i uid := by
  obtain ⟨call, phase⟩ := t
  have hcall : s.calls[i]? = some call := by
    rw [h.calls, List.getElem?_map, hi]
    rfl
  cases call with
  | registers req =>
    cases phase with
    | inserted u =>
      obtain rfl : u = uid := ht
      obtain ⟨g, hg, huid, hthread⟩ := h.inserted i _ u hi rfl
      exact ⟨g, hg, huid, .inl hthread⟩
    | _ => exact ht.elim
  | logs_in req =>
    cases phase with
    | holds row =>
      obtain ⟨rfl, username, password, hreq, hcheck⟩ := ht
      obtain ⟨g, hg, huid, hpassword, salt, hrow⟩ := h.held _ (List.mem_of_getElem? hi) row rfl
      rw [hrow] at hcheck
      exact ⟨g, hg, huid, .inr ⟨req, username, password, hcall, hreq,
        hlib.eq_of_check hcheck hpassword⟩⟩
    | _ => exact ht.elim
  | updates uid' req => exact ht.elim

/-- The response is sent. -/
theorem AccountInv.responds (h : AccountInv lib ts s) (hlib : lib.Lawful) (hi : ts[i]? = some t)
    {rsp : Except ServiceError AuthRsp} (hrsp : t.MayRespond lib rsp) :
    AccountInv lib ts { s with answers := (i, rsp) :: s.answers } := by
  refine { h with answers := ?_ }
  intro j tokens user hmem
  rcases List.mem_cons.1 hmem with heq | hmem
  · obtain ⟨rfl, rfl⟩ := Prod.mk.inj heq
    exact h.entitled hlib hi (hrsp tokens user rfl)
  · exact h.answers j tokens user hmem

/-- A row is read. -/
theorem AccountInv.holds (h : AccountInv lib ts s) (hi : ts[i]? = some t) {row : AccountRow}
    (hrow : row ∈ s.users.rows) : AccountInv lib (ts.set i { t with phase := .holds row }) s :=
  h.moves hi (.holds row) (fun _ h' ↦ AccountPhase.holds.inj h' ▸ h.rows row hrow)
    (fun _ h' ↦ by cases h')

theorem AccountState.registers_of_call {username password nickname uid : String}
    (hi : s.calls[i]? = some (.registers ⟨.username_pwd username password, nickname⟩)) :
    s.registers i uid = ⟨i, uid, password⟩ :: s.registered := by
  rw [AccountState.registers, hi]

/-- **Every call of a thread** keeps the passwords. -/
theorem accountInv_call (hlib : lib.Lawful) {o : AccountOp} {c : AccountChoice} {r : o.Res}
    (h : AccountInv lib ts s) (hi : ts[i]? = some t) (ha : (accountContract lib).allowed t o)
    (hx : s.exec collate i o c = some (r, s')) :
    AccountInv lib (ts.set i ((accountContract lib).next t o r)) s' := by
  have hcall : s.calls[i]? = some t.call := by
    rw [h.calls, List.getElem?_map, hi]
    rfl
  cases o with
  | selectByNickname nickname =>
    obtain ⟨hr, rfl⟩ := Prod.mk.inj (Option.some.inj hx)
    obtain ⟨call, phase⟩ := t
    cases call with
    | registers req | updates uid req => exact h.stays hi
    | logs_in req =>
      cases r with
      | none => exact h.stays hi
      | some row =>
        have hrow : row ∈ s.named collate nickname := by
          split at hr
          · cases hr
          · exact List.mem_of_getElem? hr
        exact h.holds hi (List.mem_filter.1 hrow).1
  | selectById uid =>
    obtain ⟨hr, rfl⟩ := Prod.mk.inj (Option.some.inj hx)
    cases r with
    | none => exact h.stays hi
    | some row =>
      have hrow : s.users.find uid = some row := by
        split at hr
        · cases hr
        · exact hr
      exact h.holds hi (Table.mem_of_find hrow)
  | uuid =>
    obtain ⟨rfl, rfl⟩ := Prod.mk.inj (Option.some.inj hx)
    exact h.moves hi (.named _) (fun _ h' ↦ by cases h') (fun _ h' ↦ by cases h')
  | gensalt =>
    obtain ⟨rfl, rfl⟩ := Prod.mk.inj (Option.some.inj hx)
    obtain ⟨call, phase⟩ := t
    cases hsalt : c.salt with
    | none => exact h.stays hi
    | some salt =>
      cases phase with
      | named uid =>
        exact h.moves hi (.salted uid salt) (fun _ h' ↦ by cases h') (fun _ h' ↦ by cases h')
      | _ => exact h.stays hi
  | insert row =>
    obtain ⟨username, password, nickname, uid, salt, rfl, hpassword, rfl⟩ := ha
    simp only [AccountState.exec] at hx
    split at hx
    · obtain ⟨rfl, rfl⟩ := Prod.mk.inj (Option.some.inj hx)
      exact h.stays hi
    · next users hins =>
      split at hx
      · obtain ⟨rfl, rfl⟩ := Prod.mk.inj (Option.some.inj hx)
        exact h.stays hi
      · obtain ⟨rfl, rfl⟩ := Prod.mk.inj (Option.some.inj hx)
        split
        · rw [AccountState.registers_of_call hcall]
          have hinserted := h.inserts hcall hpassword hins
          cases c.fault with
          | true => exact hinserted.stays hi
          | false =>
            refine hinserted.moves hi (.inserted uid) (fun _ h' ↦ by cases h') fun _ h' ↦ ?_
            exact ⟨_, List.mem_cons_self, AccountPhase.inserted.inj h', rfl⟩
        · next hacts =>
          rw [AccountChoice.fault_of_not_acts hacts]
          exact h.stays hi
  | update row =>
    obtain ⟨uid, req, row₀, rfl, rfl⟩ := ha
    obtain ⟨g, hg, huid, hrest⟩ := h.held _ (List.mem_of_getElem? hi) row₀ rfl
    have hstays := h.stays hi
    simp only [AccountState.exec] at hx
    split at hx
    · obtain ⟨rfl, rfl⟩ := Prod.mk.inj (Option.some.inj hx)
      exact hstays
    · obtain ⟨rfl, rfl⟩ := Prod.mk.inj (Option.some.inj hx)
      split
      · exact hstays.writes ⟨g, hg, huid, hrest⟩
      · exact hstays
  | esWrite doc | invalidate uid | profile rsp =>
    obtain ⟨-, rfl⟩ := Prod.mk.inj (Option.some.inj hx)
    exact h.stays hi
  | auth o =>
    cases o with
    | respond rsp =>
      obtain ⟨-, rfl⟩ := Prod.mk.inj (Option.some.inj hx)
      refine (h.stays hi).responds hlib (Pool.getElem?_set_self hi) ?_
      rintro tokens user rfl
      exact ha
    | _ =>
      obtain ⟨-, rfl⟩ := Prod.mk.inj (Option.some.inj hx)
      exact h.stays hi

/-- A request arrives. -/
theorem AccountInv.arrives (h : AccountInv lib ts s) (c : AccountCall) :
    AccountInv lib (ts ++ [⟨c, .idle⟩]) { s with calls := s.calls ++ [c] } := by
  refine { h with calls := ?_, held := ?_, requested := ?_, inserted := ?_, answers := ?_ }
  · rw [h.calls, List.map_append]
    rfl
  · intro t ht row hrow
    rcases List.mem_append.1 ht with ht | ht
    · exact h.held t ht row hrow
    · obtain rfl := List.mem_singleton.1 ht
      cases hrow
  · intro g hg
    obtain ⟨username, nickname, hcall⟩ := h.requested g hg
    exact ⟨username, nickname, Pool.getElem?_append_of_some hcall⟩
  · intro j t uid ht huid
    refine h.inserted j t uid (Pool.getElem?_of_append ht ?_) huid
    rintro rfl
    cases huid
  · intro j tokens user hmem
    exact (h.answers j tokens user hmem).mono (fun _ hg ↦ hg)
      fun _ hc ↦ Pool.getElem?_append_of_some hc

theorem accountInv_event {p p' : AccountPool} {e : AccountEv} (h : AccountInv lib ts p.shared)
    (hm : p.Meets (accountContract lib) (fun _ ↦ True) ts)
    (hx : AccountState.env cfg lib e p = some p') :
    ∃ ts', AccountInv lib ts' p'.shared ∧
      p'.Meets (accountContract lib) (fun _ ↦ True) ts' := by
  cases e with
  | arrive c =>
    obtain rfl := Option.some.inj hx
    exact ⟨_, h.arrives c, hm.spawn c.text_meets _⟩
  | crash i =>
    obtain rfl := Option.some.inj hx
    exact ⟨ts, h, hm.stop (fun _ ↦ trivial) i _⟩

end Invariant

/-- **Tokens are for who knows the password.** Whatever the order of the calls and whichever fail: a
user for whom tokens have been handed out has been registered by one call of `Register`, and the
tokens have been handed out by this call, or by a call of `Login` with the password that was
registered, as far as bcrypt is given it. -/
theorem tokens_need_password (cfg : JwtConfig) (lib : PasswordLib) (hlib : lib.Lawful)
    (collate : String → String) (p : AccountPool)
    (hr : (accountService cfg lib collate).Reach .any ⟨[], {}⟩ p) (i : ℕ) (tokens : AuthTokens)
    (uid nickname : String)
    (hanswer : (i, .ok (.tokens tokens (some (uid, nickname)))) ∈ p.shared.answers) :
    ∃ g ∈ p.shared.registered, g.user_id = uid ∧
      (∀ g' ∈ p.shared.registered, g'.user_id = uid → g' = g) ∧ p.shared.Requested g ∧
      (g.thread = i ∨ ∃ req username password, p.shared.calls[i]? = some (.logs_in req) ∧
        req.credential = .username_pwd username password ∧
        password_bytes password = password_bytes g.password) := by
  have h₀ : AccountInv lib [] {} := by
    refine ⟨rfl, ?_, ?_, ?_, List.nodup_nil, ?_, ?_, ?_⟩
    · exact fun _ h ↦ by cases h
    · exact fun _ h ↦ by cases h
    · exact fun _ h ↦ by cases h
    · exact fun _ h ↦ by cases h
    · exact fun _ _ _ h ↦ by cases h
    · exact fun _ _ _ h ↦ by cases h
  obtain ⟨ts, h, -⟩ : ∃ ts, AccountInv lib ts p.shared ∧
      p.Meets (accountContract lib) (fun _ ↦ True) ts := by
    refine Machine.invariant hr ⟨[], h₀, .nil⟩ ?_ ?_
    · intro ts s i t o c r s' h hi ha _ hx
      exact ⟨trivial, accountInv_call hlib h hi ha hx⟩
    · intro ts p e p' h hm _ hx
      exact accountInv_event h hm hx
  obtain ⟨g, hg, huid, hproved⟩ := h.answers i tokens (uid, nickname) hanswer
  refine ⟨g, hg, huid, fun g' hg' huid' ↦ ?_, h.requested g hg, hproved⟩
  exact List.inj_on_of_nodup_map h.once hg' hg (huid'.trans huid.symm)

/-- A library that hides nothing. -/
def plainLib : PasswordLib := ⟨fun pw _ ↦ pw, fun pw hash ↦ pw = hash⟩

theorem plainLib_lawful : plainLib.Lawful where
  same pw pw' salt h := by rw [show pw = pw' from of_decide_eq_true h]

/-- Tokens are made. -/
def tokens_made : AccountChoice where
  auth o :=
    match o with
    | .issue _ _ is_refresh => if is_refresh then ("r1", "refresh") else ("a1", "access")
    | o => quiet_auth o

/-- Alice registers, and then logs in. -/
def aliceRegisters : List (Machine.Label AccountChoice AccountEv) :=
  [.event (.arrive (.registers ⟨.username_pwd "" "secret", "alice"⟩)),
    .call 0 {}, .call 0 { uid := "u1" }, .call 0 {}, .call 0 {}, .call 0 {},
    .call 0 tokens_made, .call 0 tokens_made, .call 0 {}, .call 0 {},
    .event (.arrive (.logs_in ⟨.username_pwd "alice" "secret", "phone"⟩)),
    .call 1 {}, .call 1 tokens_made, .call 1 tokens_made, .call 1 {}, .call 1 {}]

/-- The tokens that she gets. -/
def alicesTokens : AuthTokens := auth_tokens phoneConfig "access" "refresh"

/-- They are for the user who has been registered. -/
theorem tokens_need_password_alice :
    plainLib.Lawful ∧ ∃ p,
      (accountService phoneConfig plainLib id).Reach .any ⟨[], {}⟩ p ∧
      (1, .ok (.tokens alicesTokens (some ("u1", "alice")))) ∈ p.shared.answers ∧
      ∃ g ∈ p.shared.registered, g.user_id = "u1" ∧
        (∀ g' ∈ p.shared.registered, g'.user_id = "u1" → g' = g) ∧ p.shared.Requested g ∧
        (g.thread = 1 ∨ ∃ req username password, p.shared.calls[1]? = some (.logs_in req) ∧
          req.credential = .username_pwd username password ∧
          password_bytes password = password_bytes g.password) := by
  obtain ⟨p, hp, hseen⟩ := Machine.exists_of_run (accountService phoneConfig plainLib id) .any
    ⟨[], {}⟩ aliceRegisters
    (fun p ↦ (1, .ok (.tokens alicesTokens (some ("u1", "alice")))) ∈ p.shared.answers)
    (by decide +kernel)
  exact ⟨plainLib_lawful, p, hp, hseen, tokens_need_password phoneConfig plainLib plainLib_lawful
    id p hp 1 alicesTokens "u1" "alice" hseen⟩

end ChatNow
