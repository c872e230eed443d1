import MernChat.Auth.Users
import MernChat.Library.Table
import MernChat.Library.Transition
import MernChat.Runtime.Encoding

/-!
# Signing up and logging in

A user signs up with a password of 8 to 128 characters, of which the table keeps the `bcrypt` hash,
and logs in with the e-mail, trimmed and in lower case, and the password. The hash tells passwords
apart by their first 72 bytes only.

## Main definitions

* `signupSchema`, `loginSchema`: the validations
* `Bcrypt`, `Bcrypt.Documented`: the hash, and what is known of it
* `registerUser`, `authenticateUser`: the service
* `registrationSystem`: sequences of successful registrations
* `PasswordExact`: a login succeeds exactly with the password of the registration
* `ToldApart`: what the hash, and the column of the e-mail, must not confuse

## Main results

* `password_exact_iff`: exactly when a login is exact
* `password_not_exact`: two accepted passwords of one account
-/

namespace MernChat

open Library Library.TransitionSystem

/-! ## Validation -/

def MAX_FULLNAME_LENGTH : Nat := 100

def MAX_EMAIL_LENGTH : Nat := 320

def MAX_PASSWORD_LENGTH : Nat := 128

/-- The fields of a body, where they are strings; a body that is no object has none. -/
structure SignupBody where
  fullname : Option JsString
  email : Option JsString
  password : Option JsString
  confirmPassword : Option JsString

structure LoginBody where
  email : Option JsString
  password : Option JsString

def isNonEmptyString : Option JsString → Bool
  | some value => decide (0 < (trim value).length)
  | none => false

/-- The check of an e-mail, the same in both schemas. -/
def emailErrors (email : Option JsString) : FieldErrors :=
  if isNonEmptyString email = false ∨ MAX_EMAIL_LENGTH < (trim (email.getD [])).length ∨
      (email.getD []).contains 0x40 = false then
    [(js "email", js "A valid email is required")]
  else []

/-- The errors of `POST /signup`. -/
def signupSchema (body : SignupBody) : FieldErrors :=
  (if isNonEmptyString body.fullname = false ∨ (trim (body.fullname.getD [])).length < 2 ∨
      MAX_FULLNAME_LENGTH < (trim (body.fullname.getD [])).length then
    [(js "fullname", js s!"Full name must contain 2-{MAX_FULLNAME_LENGTH} characters")]
  else []) ++
  emailErrors body.email ++
  (if isNonEmptyString body.password = false ∨ (body.password.getD []).length < 8 ∨
      MAX_PASSWORD_LENGTH < (body.password.getD []).length then
    [(js "password", js s!"Password must contain 8-{MAX_PASSWORD_LENGTH} characters")]
  else []) ++
  -- a confirmation of the wrong length is not compared
  match body.confirmPassword with
  | none => [(js "confirmPassword", js "Password confirmation is invalid")]
  | some confirmPassword =>
    if confirmPassword.length < 8 ∨ MAX_PASSWORD_LENGTH < confirmPassword.length then
      [(js "confirmPassword", js "Password confirmation is invalid")]
    else if body.password ≠ some confirmPassword then
      [(js "confirmPassword", js "Passwords do not match")]
    else []

/-- The errors of `POST /login`. -/
def loginSchema (body : LoginBody) : FieldErrors :=
  emailErrors body.email ++
  -- the message says eight characters, the check does not ask for them
  if isNonEmptyString body.password = false ∨
      MAX_PASSWORD_LENGTH < (body.password.getD []).length then
    [(js "password", js s!"Password must be between 8 and {MAX_PASSWORD_LENGTH} characters")]
  else []

/-! ## The hash -/

/-- `bcrypt.hash(password, rounds)`, with the salt it draws, and `bcrypt.compare`. -/
structure Bcrypt where
  hash : (salt password : JsString) → (rounds : Nat) → JsString
  compare : (password hash : JsString) → Bool

/-- A hash is an ASCII text, and a password matches the hashes of the passwords with the same first
72 bytes of UTF-8. The package encodes unpaired surrogates, which have no UTF-8, in its own way. -/
structure Bcrypt.Documented (B : Bcrypt) (utf8 : JsString → List UInt8) : Prop where
  wellFormed : ∀ s, toWellFormed s = s → utf8 s = utf8Encode s
  ascii : ∀ salt password rounds, Ascii (B.hash salt password rounds)
  compare : ∀ salt password other rounds, B.compare other (B.hash salt password rounds) = true ↔
    (utf8 other).take 72 = (utf8 password).take 72

/-! ## The service -/

/-- A user as the service returns it; `password` is the hash. -/
structure UserRecord where
  _id : JsString
  fullname : JsString
  email : JsString
  password : JsString
deriving DecidableEq

def toUserRecord (user : PostgresUser) : UserRecord where
  _id := user.id
  fullname := user.fullname
  email := user.email
  password := user.passwordHash

def findByEmail (email : JsString) (includePassword : Bool) : AuthTx (Option UserRecord) := do
  let user ← findUserByNormalizedEmail email
  return user.map fun user =>
    toUserRecord (if includePassword then user else { user with passwordHash := [] })

/-- What a registration draws from its environment. -/
structure RegisterEnv where
  id : Uuid
  salt : JsString
  now : Int

def invalidSignup : Thrown := .app ⟨js "Invalid signup data", 400, .VALIDATION_ERROR, none⟩

def passwordsDoNotMatch : Thrown :=
  .app ⟨js "Passwords do not match", 400, .VALIDATION_ERROR, none⟩

def alreadyRegistered : Thrown := .app ⟨js "User already registered", 409, .CONFLICT, none⟩

def invalidCredential : Thrown :=
  .app ⟨js "Invalid user credential", 401, .INVALID_CREDENTIALS, none⟩

section Service

variable (B : Bcrypt) (toLowerCase : JsString → JsString)

def normalizeEmail (email : JsString) : JsString := toLowerCase (trim email)

def registerUser (env : RegisterEnv) (body : SignupBody) : Prog AuthDatabase Thrown UserRecord :=
  match body with
  | ⟨some fullname, some email, some password, some confirmPassword⟩ => do
    require (¬ ((trim fullname).length < 2 ∨ MAX_FULLNAME_LENGTH < (trim fullname).length ∨
      MAX_EMAIL_LENGTH < (trim email).length ∨ email.contains 0x40 = false ∨
      password.length < 8 ∨ MAX_PASSWORD_LENGTH < password.length ∨
      confirmPassword.length < 8 ∨ MAX_PASSWORD_LENGTH < confirmPassword.length)) invalidSignup
    require (password = confirmPassword) passwordsDoNotMatch
    let normalizedEmail := normalizeEmail toLowerCase email
    let existing ← query none (findByEmail normalizedEmail false)
    require (existing.isNone = true) alreadyRegistered
    let passwordHash := B.hash env.salt password 12
    let user ← query none
      (createUser env.id ⟨trim fullname, normalizedEmail, passwordHash⟩ env.now)
    return toUserRecord user
  | _ => throw invalidSignup

def authenticateUser (body : LoginBody) : Prog AuthDatabase Thrown UserRecord :=
  match body with
  | ⟨some email, some password⟩ => do
    require (¬ ((trim email).length = 0 ∨ MAX_EMAIL_LENGTH < (trim email).length ∨
      password.length = 0 ∨ MAX_PASSWORD_LENGTH < password.length)) invalidCredential
    let user ← query none (findByEmail (normalizeEmail toLowerCase email) true)
    match user with
    | none => throw invalidCredential
    | some user => do
      require (B.compare password user.password = true) invalidCredential
      return user
  | _ => throw invalidCredential

end Service

/-! ## Registrations -/

/-- A user that registered, with the password. -/
structure Registered where
  user : UserRecord
  password : JsString
deriving DecidableEq

structure RegistrationState where
  db : AuthDatabase
  registered : List Registered

/-- A call of `registerUser`. -/
structure RegisterCall where
  env : RegisterEnv
  body : SignupBody

section System

variable (B : Bcrypt) (toLowerCase : JsString → JsString)

/-- A registration that succeeds. -/
def registerStep (s : RegistrationState) (call : RegisterCall) : Option RegistrationState :=
  match exec (registerUser B toLowerCase call.env call.body) s.db with
  | (.ok user, db) =>
    some ⟨db, s.registered ++ [⟨user, call.body.password.getD []⟩]⟩
  | (.error _, _) => none

/-- The sequences of successful registrations, from the empty tables on. -/
def registrationSystem : TransitionSystem RegistrationState RegisterCall where
  init s := s = ⟨⟨[], []⟩, []⟩
  step := registerStep B toLowerCase

/-- **The login is exact**: it succeeds exactly when a user has the e-mail and registered with the
password. -/
def PasswordExact (s : RegistrationState) (email password : JsString) : Prop :=
  (∃ user, (exec (authenticateUser B toLowerCase ⟨some email, some password⟩) s.db).1 = .ok user) ↔
    ∃ r ∈ s.registered, r.user.email = normalizeEmail toLowerCase email ∧ r.password = password

/-- **What must not be confused.** The user found under the e-mail, as the column stores it, has
that e-mail; and a password with the same first 72 bytes as that of the user is that of the user. -/
def ToldApart (utf8 : JsString → List UInt8) (s : RegistrationState) (email password : JsString) :
    Prop :=
  ∀ r ∈ s.registered, pgText (normalizeEmail toLowerCase email) = some r.user.email →
    (utf8 password).take 72 = (utf8 r.password).take 72 →
      r.user.email = normalizeEmail toLowerCase email ∧ r.password = password

end System

/-! ## What the schemas guarantee -/

theorem emailErrors_eq_nil {email : Option JsString} (h : emailErrors email = []) :
    ∃ e, email = some e ∧ 0 < (trim e).length ∧ (trim e).length ≤ MAX_EMAIL_LENGTH ∧
      e.contains 0x40 = true := by
  unfold emailErrors at h
  split_ifs at h with hbad
  simp only [not_or, Bool.not_eq_false, not_lt] at hbad
  obtain ⟨hsome, hlength, hat⟩ := hbad
  cases email with
  | none => cases hsome
  | some e => exact ⟨e, rfl, of_decide_eq_true hsome, hlength, hat⟩

/-- What `loginSchema` accepts passes the checks of `authenticateUser`. -/
theorem loginSchema_sound {email password : JsString}
    (h : loginSchema ⟨some email, some password⟩ = []) :
    ¬ ((trim email).length = 0 ∨ MAX_EMAIL_LENGTH < (trim email).length ∨
      password.length = 0 ∨ MAX_PASSWORD_LENGTH < password.length) := by
  obtain ⟨hemail, hpassword⟩ := List.append_eq_nil_iff.mp h
  obtain ⟨_, he, hpos, hle, -⟩ := emailErrors_eq_nil hemail
  obtain rfl := Option.some.inj he
  split_ifs at hpassword with hbad
  simp only [not_or, Bool.not_eq_false, not_lt, Option.getD_some] at hbad
  have hnonempty : password.length ≠ 0 := by
    intro hzero
    rw [List.length_eq_zero_iff.mp hzero] at hbad
    exact absurd hbad.1 (by decide)
  omega

/-- What `signupSchema` accepts passes the checks of `registerUser`. -/
theorem signupSchema_sound {body : SignupBody} (h : signupSchema body = []) :
    ∃ fullname email password, body = ⟨some fullname, some email, some password, some password⟩ ∧
      ¬ ((trim fullname).length < 2 ∨ MAX_FULLNAME_LENGTH < (trim fullname).length ∨
        MAX_EMAIL_LENGTH < (trim email).length ∨ email.contains 0x40 = false ∨
        password.length < 8 ∨ MAX_PASSWORD_LENGTH < password.length) := by
  obtain ⟨fullname, email, password, confirmPassword⟩ := body
  obtain ⟨h, hconfirm⟩ := List.append_eq_nil_iff.mp h
  obtain ⟨h, hpassword⟩ := List.append_eq_nil_iff.mp h
  obtain ⟨hfullname, hemail⟩ := List.append_eq_nil_iff.mp h
  obtain ⟨e, rfl, -, hle, hat⟩ := emailErrors_eq_nil hemail
  simp only at hfullname hpassword hconfirm
  split_ifs at hfullname hpassword with hname hpass
  simp only [not_or, Bool.not_eq_false, not_lt] at hname hpass
  cases fullname with
  | none => cases hname.1
  | some fullname =>
    cases password with
    | none => cases hpass.1
    | some password =>
      cases confirmPassword with
      | none => cases hconfirm
      | some confirmPassword =>
        simp only at hconfirm
        split_ifs at hconfirm with hlength hne
        obtain rfl := Option.some.inj (not_not.mp hne)
        refine ⟨fullname, e, password, rfl, ?_⟩
        simp only [Option.getD_some] at hname hpass
        simp only [not_or, not_lt, Bool.not_eq_false]
        exact ⟨hname.2.1, hname.2.2, hle, hat, hpass.2.1, hpass.2.2⟩

/-! ## The service -/

section Service

variable {B : Bcrypt} {toLowerCase : JsString → JsString} {utf8 : JsString → List UInt8}
  {db db' : AuthDatabase} {s : RegistrationState}

theorem findByEmail_eq_ok {email : JsString} {includePassword : Bool} {r : Option UserRecord} :
    findByEmail email includePassword db = .ok (r, db') ↔ ∃ e, pgText email = some e ∧
      r = (db.users.find? fun u => u.email == e).map (fun row => toUserRecord
        (if includePassword then mapUser row else { mapUser row with passwordHash := [] })) ∧
          db' = db := by
  simp only [findByEmail, Tx.bind_eq_ok, findUserByNormalizedEmail_eq_ok, Tx.pure_eq_ok]
  constructor
  · rintro ⟨_, _, ⟨e, he, rfl, rfl⟩, rfl, rfl⟩
    exact ⟨e, he, Option.map_map .., rfl⟩
  · rintro ⟨e, he, rfl, rfl⟩
    exact ⟨_, _, ⟨e, he, rfl, rfl⟩, Option.map_map .., rfl⟩

/-- **A registration that succeeds** adds the row of its user, under an e-mail that is not taken. -/
theorem registerUser_eq_ok {env : RegisterEnv} {body : SignupBody} {user : UserRecord}
    (h : exec (registerUser B toLowerCase env body) db = (.ok user, db')) :
    ∃ (email password : JsString) (row : UserRow), body.password = some password ∧
      pgText (normalizeEmail toLowerCase email) = some row.email ∧
      pgText (B.hash env.salt password 12) = some row.passwordHash ∧
      (∀ u ∈ db.users, u.email ≠ row.email) ∧ user = toUserRecord (mapUser row) ∧
      db' = { db with users := db.users ++ [row] } := by
  unfold registerUser at h
  split at h
  · rename_i fullname email password confirmPassword
    simp only [exec_bind_eq_ok, exec_require_eq_ok, exec_query_eq_ok, createUser_eq_ok] at h
    obtain ⟨_, _, ⟨-, rfl⟩, _, _, ⟨-, rfl⟩, existing, _, hfind, _, _, ⟨-, rfl⟩, _, _,
      ⟨row, -, -, -, he, -, hp, -, -, -, hemail, rfl, rfl⟩, hpure⟩ := h
    obtain ⟨_, -, -, rfl⟩ := findByEmail_eq_ok.mp hfind
    obtain ⟨huser, rfl⟩ := Prod.mk.inj hpure
    exact ⟨email, password, row, rfl, he, hp, hemail, (Except.ok.inj huser).symm, rfl⟩
  · cases h

/-- A row holds the e-mail of a registration and the hash of its password. -/
structure RowOf (B : Bcrypt) (r : Registered) (row : UserRow) : Prop where
  email : row.email = r.user.email
  passwordHash : ∃ salt, row.passwordHash = B.hash salt r.password 12

/-- **The invariant**: the rows are those of the registrations, with distinct e-mails. -/
structure RegistrationState.Hashed (B : Bcrypt) (s : RegistrationState) : Prop where
  rows : List.Forall₂ (RowOf B) s.registered s.db.users
  stored : ∀ r ∈ s.registered, pgText r.user.email = some r.user.email
  emails : (s.db.users.map UserRow.email).Nodup

theorem RegistrationState.Hashed.empty : Hashed B ⟨⟨[], []⟩, []⟩ :=
  ⟨.nil, by simp, List.nodup_nil⟩

theorem RegistrationState.Hashed.step (hs : s.Hashed B) (hB : B.Documented utf8)
    {call : RegisterCall} {t : RegistrationState} (h : registerStep B toLowerCase s call = some t) :
    t.Hashed B := by
  unfold registerStep at h
  split at h
  · rename_i user db hexec
    obtain rfl := Option.some.inj h
    obtain ⟨email, password, row, hpassword, hemail, hhash, hnew, rfl, rfl⟩ :=
      registerUser_eq_ok hexec
    -- the hash is stored as it is
    rw [pgText_of_ascii (hB.ascii _ _ _)] at hhash
    refine ⟨?_, ?_, ?_⟩
    · apply List.rel_append hs.rows
      refine .cons ⟨rfl, call.env.salt, ?_⟩ .nil
      rw [hpassword, ← Option.some.inj hhash]
      rfl
    · intro r hr
      rcases List.mem_append.mp hr with hr | hr
      · exact hs.stored r hr
      · rw [List.mem_singleton.mp hr]
        exact pgText_of_pgText hemail
    · show ((s.db.users ++ [row]).map UserRow.email).Nodup
      rw [List.map_append, List.nodup_append]
      exact ⟨hs.emails, List.nodup_singleton _, by simpa using hnew⟩
  · cases h

/-- Every reachable state is hashed. -/
theorem hashed_of_reachable (hB : B.Documented utf8) {G : Guard RegistrationState RegisterCall}
    (h : (registrationSystem B toLowerCase).Reachable G s) : s.Hashed B := by
  refine h.invariant ?_ ?_
  · rintro s rfl
    exact .empty
  · intro s call t hs _ hst
    exact hs.step hB hst

/-- A text the column cannot hold fails the query. -/
theorem findByEmail_eq_error {x : JsString} (h : pgText x = none) (b : Bool) :
    ∃ e, findByEmail x b db = .error e := by
  cases hfind : findByEmail x b db with
  | error e => exact ⟨e, rfl⟩
  | ok r =>
    obtain ⟨e, he, -⟩ := findByEmail_eq_ok.mp hfind
    rw [h] at he
    cases he

/-- What is left of a login whose user was found succeeds with the password. -/
theorem exec_compare_iff {password : JsString} {row : UserRow} :
    (∃ user, (exec (do
      require (B.compare password row.passwordHash = true) invalidCredential
      return toUserRecord (mapUser row)) db).1 = .ok user) ↔
        B.compare password row.passwordHash = true := by
  by_cases hc : B.compare password row.passwordHash = true
  · rw [exec_bind_ok (exec_require_pos hc _ _)]
    exact iff_of_true ⟨_, rfl⟩ hc
  · rw [exec_bind_error (exec_require_neg hc _ _)]
    simp [hc]

/-- **A password matches a row** when it has the first 72 bytes of one registered under the e-mail
of the row. -/
theorem RegistrationState.Hashed.compare_iff (hs : s.Hashed B) (hB : B.Documented utf8)
    {row : UserRow} (hrow : row ∈ s.db.users) (password : JsString) :
    B.compare password row.passwordHash = true ↔ ∃ r ∈ s.registered, r.user.email = row.email ∧
      (utf8 password).take 72 = (utf8 r.password).take 72 := by
  obtain ⟨hrows, hregistered⟩ := exists_mem_of_forall₂ hs.rows
  constructor
  · intro hcompare
    obtain ⟨r, hr, hof⟩ := hregistered row hrow
    obtain ⟨salt, hhash⟩ := hof.passwordHash
    rw [hhash, hB.compare] at hcompare
    exact ⟨r, hr, hof.email.symm, hcompare⟩
  · rintro ⟨r, hr, hemail, hsame⟩
    -- e-mails are distinct, so that this is the row of the registration
    obtain ⟨row', hrow', hof⟩ := hrows r hr
    obtain rfl : row' = row := eq_of_key hs.emails hrow' hrow (hof.email.trans hemail)
    obtain ⟨salt, hhash⟩ := hof.passwordHash
    rw [hhash, hB.compare]
    exact hsame

/-- **When a login succeeds**: a user registered under what the column makes of the e-mail, with a
password of the same first 72 bytes. -/
theorem authenticateUser_iff (hs : s.Hashed B) (hB : B.Documented utf8) {email password : JsString}
    (hlogin : loginSchema ⟨some email, some password⟩ = []) :
    (∃ user, (exec (authenticateUser B toLowerCase ⟨some email, some password⟩) s.db).1 =
        .ok user) ↔
      ∃ r ∈ s.registered, pgText (normalizeEmail toLowerCase email) = some r.user.email ∧
        (utf8 password).take 72 = (utf8 r.password).take 72 := by
  unfold authenticateUser
  rw [exec_bind_ok (exec_require_pos (loginSchema_sound hlogin) _ _)]
  cases htext : pgText (normalizeEmail toLowerCase email) with
  | none =>
    -- the parameter is rejected
    obtain ⟨e, he⟩ := findByEmail_eq_error htext true
    rw [exec_bind_error (exec_query_error rfl he)]
    simp
  | some stored =>
    have hfind : findByEmail (normalizeEmail toLowerCase email) true s.db = .ok (_, s.db) :=
      findByEmail_eq_ok.mpr ⟨stored, htext, rfl, rfl⟩
    rw [exec_bind_ok (exec_query_ok rfl hfind)]
    cases huser : s.db.users.find? fun u => u.email == stored with
    | none =>
      simp only [List.find?_eq_none, beq_iff_eq] at huser
      constructor
      · rintro ⟨user, h⟩
        cases h
      · rintro ⟨r, hr, hemail, -⟩
        obtain ⟨row, hmem, hof⟩ := (exists_mem_of_forall₂ hs.rows).1 r hr
        exact absurd (hof.email.trans (Option.some.inj hemail).symm) (huser row hmem)
    | some row =>
      have hemail : row.email = stored := by simpa using List.find?_some huser
      refine exec_compare_iff.trans ?_
      rw [hs.compare_iff hB (List.mem_of_find?_eq_some huser), hemail]
      simp only [Option.some.injEq, eq_comm]

/-- E-mails tell registrations apart. -/
theorem RegistrationState.Hashed.emails_distinct (hs : s.Hashed B) :
    (s.registered.map fun r => r.user.email).Nodup := by
  have hsame : s.registered.map (fun r => r.user.email) = s.db.users.map UserRow.email :=
    map_eq_of_forall₂ (hs.rows.imp fun _ _ hof => hof.email.symm)
  rw [hsame]
  exact hs.emails

/-- **When a login is exact**: exactly when nothing is confused. -/
theorem password_exact_iff (hB : B.Documented utf8)
    (h : (registrationSystem B toLowerCase).Reachable Guard.all s) {email password : JsString}
    (hlogin : loginSchema ⟨some email, some password⟩ = []) :
    PasswordExact B toLowerCase s email password ↔ ToldApart toLowerCase utf8 s email password := by
  have hs := hashed_of_reachable hB h
  unfold PasswordExact
  rw [authenticateUser_iff hs hB hlogin]
  constructor
  · intro hexact r hr hstored hsame
    obtain ⟨r', hr', hemail, hpassword⟩ := hexact.mp ⟨r, hr, hstored, hsame⟩
    have hstored' := hs.stored r' hr'
    rw [hemail, hstored] at hstored'
    obtain rfl : r = r' := eq_of_key hs.emails_distinct hr hr'
      ((Option.some.inj hstored').trans hemail.symm)
    exact ⟨hemail, hpassword⟩
  · intro hapart
    constructor
    · rintro ⟨r, hr, hstored, hsame⟩
      exact ⟨r, hr, hapart r hr hstored hsame⟩
    · rintro ⟨r, hr, hemail, rfl⟩
      exact ⟨r, hr, by rw [← hemail]; exact hs.stored r hr, rfl⟩

end Service

/-! ## Two passwords of one account -/

/-- A hash that keeps the first 72 bytes. -/
def sampleBcrypt : Bcrypt where
  hash _ password _ := base64urlEncode ((utf8Encode password).take 72)
  compare password hash := base64urlEncode ((utf8Encode password).take 72) == hash

theorem ascii_base64urlEncode (bytes : List UInt8) : Ascii (base64urlEncode bytes) := by
  have hchar : ∀ n < 64, 0 < (base64Char n).toNat ∧ (base64Char n).toNat < 128 := by decide
  intro c hc
  obtain ⟨n, hn, rfl⟩ := List.mem_map.mp hc
  exact hchar n (base64Digits_lt bytes n hn)

theorem documented_sampleBcrypt : sampleBcrypt.Documented utf8Encode where
  wellFormed _ _ := rfl
  ascii _ _ _ := ascii_base64urlEncode _
  compare _ password other _ := by
    show (base64urlEncode _ == base64urlEncode _) = true ↔ _
    rw [beq_iff_eq]
    constructor
    · intro h
      rw [← base64urlDecode_base64urlEncode ((utf8Encode other).take 72), h,
        base64urlDecode_base64urlEncode]
    · intro h
      rw [h]

/-- A registration with the password. -/
def sampleRegister (password : JsString) : RegisterCall where
  env := ⟨Uuid.ofNat 1, js "salt", 1767225600000000⟩
  body := ⟨some (js "User"), some (js "Test@example.com"), some password, some password⟩

/-- The user of the registration is the only one. -/
def OnlyUser (password : JsString) (s : RegistrationState) : Prop :=
  s.registered.length = 1 ∧
    ∀ r ∈ s.registered, r.user.email = js "test@example.com" ∧ r.password = password

instance (password : JsString) : DecidablePred (OnlyUser password) :=
  fun _ => inferInstanceAs (Decidable (_ ∧ _))

theorem exists_onlyUser (password : JsString)
    (h : ((registrationSystem sampleBcrypt (List.map asciiLower)).runFrom ⟨⟨[], []⟩, []⟩
      [sampleRegister password]).any (fun s => decide (OnlyUser password s)) = true) :
    ∃ s, (registrationSystem sampleBcrypt (List.map asciiLower)).Reachable Guard.all s ∧
      OnlyUser password s := by
  obtain ⟨s, hrun, hs⟩ := exists_of_any (OnlyUser password) h
  exact ⟨s, .of_runFrom (.init rfl) hrun, hs⟩

/-- A short password is told apart from every other: its own is accepted, and another is not. -/
theorem password_exact_iff_sample : ∃ s, OnlyUser (js "password123") s ∧
    (∃ user, (exec (authenticateUser sampleBcrypt (List.map asciiLower)
      ⟨some (js "TEST@example.com"), some (js "password123")⟩) s.db).1 = .ok user) ∧
    PasswordExact sampleBcrypt (List.map asciiLower) s (js "TEST@example.com")
      (js "password124") := by
  obtain ⟨s, hs, hlength, honly⟩ := exists_onlyUser (js "password123") (by decide +kernel)
  refine ⟨s, ⟨hlength, honly⟩, ?_, ?_⟩
  · have hexact : PasswordExact sampleBcrypt (List.map asciiLower) s (js "TEST@example.com")
        (js "password123") := by
      apply (password_exact_iff documented_sampleBcrypt hs (by decide +kernel)).mpr
      intro r hr _ _
      exact ⟨(honly r hr).1.trans (by decide +kernel), (honly r hr).2⟩
    obtain ⟨r, hr⟩ := List.exists_mem_of_length_pos (hlength ▸ Nat.one_pos)
    exact hexact.mpr ⟨r, hr, (honly r hr).1.trans (by decide +kernel), (honly r hr).2⟩
  · apply (password_exact_iff documented_sampleBcrypt hs (by decide +kernel)).mpr
    intro r hr _ hsame
    rw [(honly r hr).2] at hsame
    exact absurd hsame (by decide +kernel)

/-- Passwords of 73 characters that differ in the last one: the account of the one is opened with
the other. -/
theorem password_not_exact : ∃ B utf8 toLowerCase s email password,
    Bcrypt.Documented B utf8 ∧
      (registrationSystem B toLowerCase).Reachable Guard.all s ∧
      loginSchema ⟨some email, some password⟩ = [] ∧
      ¬ PasswordExact B toLowerCase s email password := by
  obtain ⟨s, hs, hlength, honly⟩ :=
    exists_onlyUser (List.replicate 72 0x61 ++ js "b") (by decide +kernel)
  have hlogin : loginSchema ⟨some (js "test@example.com"),
    some (List.replicate 72 0x61 ++ js "c")⟩ = [] := by decide +kernel
  refine ⟨sampleBcrypt, utf8Encode, List.map asciiLower, s, js "test@example.com",
    List.replicate 72 0x61 ++ js "c", documented_sampleBcrypt, hs, hlogin, ?_⟩
  intro hexact
  obtain ⟨r, hr⟩ := List.exists_mem_of_length_pos (hlength ▸ Nat.one_pos)
  -- the first 72 characters are enough
  have hsucceeds : ∃ user, (exec (authenticateUser sampleBcrypt (List.map asciiLower)
      ⟨some (js "test@example.com"), some (List.replicate 72 0x61 ++ js "c")⟩) s.db).1 =
        .ok user := by
    apply (authenticateUser_iff (hashed_of_reachable documented_sampleBcrypt hs)
      documented_sampleBcrypt hlogin).mpr
    refine ⟨r, hr, ?_, ?_⟩
    · rw [(honly r hr).1]
      decide +kernel
    · rw [(honly r hr).2]
      decide +kernel
  obtain ⟨r', hr', -, hpassword⟩ := hexact.mp hsucceeds
  rw [(honly r' hr').2] at hpassword
  exact absurd hpassword (by decide +kernel)

end MernChat
