import MernChat.Auth.Passwords

/-!
# What a signup stores

The validation counts UTF-16 code units of the trimmed texts; the columns count code points, after
lower-casing, and hold no U+0000. A full name is never too long for its column. An e-mail may be,
when its lower-case form is longer, and either may hold a U+0000.

## Main definitions

* `PassesChecks`: the service itself finds nothing wrong with a body
* `SignupStorable`: what the columns need beyond the validation

## Main results

* `exec_registerUser_iff`: when a registration that passes the checks succeeds
* `accepted_signup_stored_iff`: exactly the accepted bodies that are storable are registered
-/

namespace MernChat

open Library

/-- What `registerUser` checks itself, before any query, finds nothing. -/
def PassesChecks (B : Bcrypt) (toLowerCase : JsString → JsString) (env : RegisterEnv)
    (body : SignupBody) (db : AuthDatabase) : Prop :=
  ∀ error, (exec (registerUser B toLowerCase env body) db).1 = .error error →
    error ≠ invalidSignup ∧ error ≠ passwordsDoNotMatch

/-- **What the table needs of an accepted body**: no U+0000 in either text, at most 320 code points
in the normalized e-mail, and no row under the form of it that is stored, which has U+FFFD for
unpaired surrogates. -/
structure SignupStorable (toLowerCase : JsString → JsString) (fullname email : JsString)
    (db : AuthDatabase) : Prop where
  fullname_zero : (trim fullname).contains 0 = false
  email_zero : (normalizeEmail toLowerCase email).contains 0 = false
  email_codePoints : codePoints (normalizeEmail toLowerCase email) ≤ 320
  notTaken : ∀ u ∈ db.users, u.email ≠ toWellFormed (normalizeEmail toLowerCase email)

/-! ## The columns -/

theorem codePoints_eq_length (s : JsString) : codePoints s = (textCodePoints s).length := by
  induction s using codePoints.induct with
  | case1 => rfl
  | case2 c => rfl
  | case3 c d s h ih => rw [codePoints, textCodePoints, if_pos h, if_pos h, List.length_cons, ih]
  | case4 c d s h ih => rw [codePoints, textCodePoints, if_neg h, if_neg h, List.length_cons, ih]

/-- Replacing unpaired surrogates leaves the number of code points. -/
theorem codePoints_toWellFormed (s : JsString) : codePoints (toWellFormed s) = codePoints s := by
  rw [codePoints_eq_length, textCodePoints_toWellFormed, codePoints_eq_length]

section Service

variable {B : Bcrypt} {toLowerCase : JsString → JsString} {utf8 : JsString → List UInt8}
  {db : AuthDatabase} {env : RegisterEnv}

/-- Reading the row of an e-mail that is not taken. -/
theorem findByEmail_isNone {email : JsString} {r : Option UserRecord} {db' : AuthDatabase}
    (h : findByEmail email false db = .ok (r, db')) :
    db' = db ∧ ∃ stored, pgText email = some stored ∧
      (r.isNone = true ↔ ∀ u ∈ db.users, u.email ≠ stored) := by
  obtain ⟨stored, hstored, rfl, rfl⟩ := findByEmail_eq_ok.mp h
  refine ⟨rfl, stored, hstored, ?_⟩
  simp

/-- **When a registration that passes the checks succeeds**: its id and its e-mail are not taken,
and its texts fit the columns. -/
theorem exec_registerUser_iff {fullname email password : JsString}
    (hchecks : ¬ ((trim fullname).length < 2 ∨ MAX_FULLNAME_LENGTH < (trim fullname).length ∨
      MAX_EMAIL_LENGTH < (trim email).length ∨ email.contains 0x40 = false ∨
      password.length < 8 ∨ MAX_PASSWORD_LENGTH < password.length)) :
    (∃ user, (exec (registerUser B toLowerCase env
        ⟨some fullname, some email, some password, some password⟩) db).1 = .ok user) ↔
      ∃ row : UserRow, pgText (trim fullname) = some row.fullname ∧
        codePoints row.fullname ≤ 100 ∧
        pgText (normalizeEmail toLowerCase email) = some row.email ∧
        codePoints row.email ≤ 320 ∧
        pgText (B.hash env.salt password 12) = some row.passwordHash ∧
        (∀ u ∈ db.users, u.id ≠ env.id) ∧ ∀ u ∈ db.users, u.email ≠ row.email := by
  constructor
  · rintro ⟨user, h⟩
    obtain ⟨db', h⟩ : ∃ db', exec (registerUser B toLowerCase env
        ⟨some fullname, some email, some password, some password⟩) db = (.ok user, db') :=
      ⟨_, Prod.ext h rfl⟩
    simp only [registerUser, exec_bind_eq_ok, exec_require_eq_ok, exec_query_eq_ok,
      createUser_eq_ok] at h
    obtain ⟨_, _, ⟨-, rfl⟩, _, _, ⟨-, rfl⟩, existing, _, hfind, _, _, ⟨-, rfl⟩, _, _,
      ⟨row, -, hf, hfn, he, hen, hp, -, -, hid, hemail, -, -⟩, -⟩ := h
    obtain ⟨rfl, -⟩ := findByEmail_isNone hfind
    exact ⟨row, hf, hfn, he, hen, hp, hid, hemail⟩
  · rintro ⟨row, hf, hfn, he, hen, hp, hid, hemail⟩
    have hfind : findByEmail (normalizeEmail toLowerCase email) false db = .ok (none, db) := by
      refine findByEmail_eq_ok.mpr ⟨row.email, he, ?_, rfl⟩
      rw [List.find?_eq_none.mpr (by simpa using hemail), Option.map_none]
    -- the row of the statement has the id and the time of the environment
    have hcreate : createUser env.id ⟨trim fullname, normalizeEmail toLowerCase email,
        B.hash env.salt password 12⟩ env.now db = .ok (_, _) :=
      createUser_eq_ok.mpr ⟨{ row with id := env.id, createdAt := env.now, updatedAt := env.now },
        rfl, hf, hfn, he, hen, hp, rfl, rfl, hid, hemail, rfl, rfl⟩
    refine ⟨toUserRecord (mapUser { row with
      id := env.id, createdAt := env.now, updatedAt := env.now }), ?_⟩
    unfold registerUser
    rw [exec_bind_ok (exec_require_pos ?_ _ _), exec_bind_ok (exec_require_pos rfl _ _),
      exec_bind_ok (exec_query_ok rfl hfind),
      exec_bind_ok (exec_require_pos (p := (none : Option UserRecord).isNone = true) rfl _ _),
      exec_bind_ok (exec_query_ok rfl hcreate)]
    · rfl
    · simp only [not_or] at hchecks ⊢
      tauto

/-- What a statement throws is an error of the database. -/
def ThrowsDatabase {α : Type} (x : AuthTx α) : Prop :=
  ∀ db error, x db = .error error → ∃ code, error = .database code

theorem ThrowsDatabase.bind {α β : Type} {x : AuthTx α} {f : α → AuthTx β}
    (hx : ThrowsDatabase x) (hf : ∀ a, ThrowsDatabase (f a)) : ThrowsDatabase (x >>= f) := by
  intro db error h
  cases hdb : x db with
  | error e =>
    rw [Tx.bind_of_error hdb, Except.error.injEq] at h
    exact h ▸ hx db e hdb
  | ok r =>
    obtain ⟨a, db'⟩ := r
    rw [Tx.bind_of_ok hdb] at h
    exact hf a db' error h

theorem ThrowsDatabase.pure {α : Type} (a : α) : ThrowsDatabase (Pure.pure a) := by
  intro db error h
  cases h

theorem ThrowsDatabase.textOf (s : JsString) : ThrowsDatabase (textOf s) := by
  intro db error h
  unfold MernChat.textOf at h
  cases hs : pgText s with
  | none =>
    rw [hs] at h
    cases h
    exact ⟨_, rfl⟩
  | some t =>
    rw [hs] at h
    cases h

theorem ThrowsDatabase.ensure (p : Prop) [Decidable p] (code : SqlState) :
    ThrowsDatabase (ensure p code) := by
  intro db error h
  unfold MernChat.ensure Tx.require at h
  split_ifs at h
  · cases h
  · cases h
    exact ⟨code, rfl⟩

theorem throwsDatabase_findByEmail (email : JsString) (b : Bool) :
    ThrowsDatabase (findByEmail email b) := by
  refine .bind (.bind (.textOf email) fun _ => .bind ?_ fun _ => .pure _) fun _ => .pure _
  intro db error h
  cases h

theorem throwsDatabase_createUser (id : Uuid) (input : CreateUserInput) (now : Int) :
    ThrowsDatabase (createUser id input now) := by
  have hvarchar : ∀ n s, ThrowsDatabase (varcharOf n s) :=
    fun n s => .bind (.textOf s) fun _ => .bind (.ensure _ _) fun _ => .pure _
  refine .bind (hvarchar _ _) fun _ => .bind (hvarchar _ _) fun _ => .bind (.textOf _) fun _ =>
    .bind ?_ fun _ => .bind (.ensure _ _) fun _ => .bind (.ensure _ _) fun _ =>
      .bind ?_ fun _ => .pure _
  · intro db error h
    cases h
  · intro db error h
    cases h

theorem exec_query_throwsDatabase {α : Type} {x : AuthTx α} (hx : ThrowsDatabase x)
    {db' : AuthDatabase} {error : Thrown} (h : exec (query none x) db = (.error error, db')) :
    ∃ code, error = .database code := by
  rw [exec_query_def, statement] at h
  cases hdb : x db with
  | ok r =>
    rw [hdb] at h
    cases h
  | error e =>
    rw [hdb] at h
    obtain ⟨he, -⟩ := Prod.mk.inj h
    exact Except.error.inj he ▸ hx db e hdb

/-- **An accepted body passes the checks of the service**: it is registered, or its e-mail is taken,
or the database rejects it. -/
theorem passesChecks_of_signupSchema {body : SignupBody} (h : signupSchema body = []) :
    PassesChecks B toLowerCase env body db := by
  obtain ⟨fullname, email, password, rfl, hchecks⟩ := signupSchema_sound h
  intro error herror
  have hexec : exec (registerUser B toLowerCase env
      ⟨some fullname, some email, some password, some password⟩) db = (.error error, _) :=
    Prod.ext herror rfl
  have hdatabase : (∃ code, error = .database code) → error ≠ invalidSignup ∧
      error ≠ passwordsDoNotMatch := by
    rintro ⟨code, rfl⟩
    exact ⟨nofun, nofun⟩
  simp only [registerUser, exec_bind_eq_error, exec_require_eq_error] at hexec
  rcases hexec with ⟨hbad, -⟩ | ⟨_, _, -, ⟨hne, -⟩ | ⟨_, _, -, hexec⟩⟩
  · exfalso
    simp only [not_or] at hchecks hbad
    tauto
  · exact absurd trivial hne
  · rcases hexec with hfind | ⟨existing, _, -, ⟨-, rfl, -⟩ | ⟨_, _, -, hcreate | ⟨_, _, -, hpure⟩⟩⟩
    · exact hdatabase (exec_query_throwsDatabase (throwsDatabase_findByEmail _ _) hfind)
    · exact ⟨by decide, by decide⟩
    · exact hdatabase (exec_query_throwsDatabase (throwsDatabase_createUser _ _ _) hcreate)
    · cases hpure

/-- **When an accepted signup is stored.** Every accepted body passes the checks of the service; it
is registered exactly when it is storable. -/
theorem accepted_signup_stored_iff (hB : B.Documented utf8) {body : SignupBody}
    (hbody : signupSchema body = []) (hid : ∀ u ∈ db.users, u.id ≠ env.id) :
    PassesChecks B toLowerCase env body db ∧
      ((∃ user, (exec (registerUser B toLowerCase env body) db).1 = .ok user) ↔
        SignupStorable toLowerCase (body.fullname.getD []) (body.email.getD []) db) := by
  refine ⟨passesChecks_of_signupSchema hbody, ?_⟩
  obtain ⟨fullname, email, password, rfl, hchecks⟩ := signupSchema_sound hbody
  rw [exec_registerUser_iff hchecks]
  simp only [Option.getD_some]
  constructor
  · rintro ⟨row, hf, -, he, hen, -, -, hemail⟩
    obtain ⟨hfzero, -⟩ := pgText_eq_some.mp hf
    obtain ⟨hezero, hstored⟩ := pgText_eq_some.mp he
    rw [← hstored, codePoints_toWellFormed] at hen
    exact ⟨hfzero, hezero, hen, by rwa [hstored]⟩
  · intro h
    -- a full name has no more code points than code units
    have hfn : codePoints (toWellFormed (trim fullname)) ≤ 100 := by
      rw [codePoints_toWellFormed]
      have hle := codePoints_le_length (trim fullname)
      simp only [MAX_FULLNAME_LENGTH, not_or, not_lt] at hchecks
      omega
    refine ⟨⟨env.id, toWellFormed (trim fullname), toWellFormed (normalizeEmail toLowerCase email),
      B.hash env.salt password 12, 0, 0⟩, pgText_eq_some.mpr ⟨h.fullname_zero, rfl⟩, hfn,
      pgText_eq_some.mpr ⟨h.email_zero, rfl⟩, ?_, pgText_of_ascii (hB.ascii _ _ _), hid,
      h.notTaken⟩
    rw [codePoints_toWellFormed]
    exact h.email_codePoints

end Service

/-! ## Accepted bodies that are not stored -/

/-- `toLowerCase` of ASCII letters and of U+0130, whose lower-case form has two code points. -/
def sampleLower (s : JsString) : JsString :=
  s.flatMap fun c => if c = 0x130 then [0x69, 0x307] else [asciiLower c]

/-- A body with the full name and the e-mail. -/
def sampleSignup (fullname email : JsString) : SignupBody :=
  ⟨some fullname, some email, some (js "password123"), some (js "password123")⟩

/-- The environment of a registration. -/
def sampleRegisterEnv : RegisterEnv := ⟨Uuid.ofNat 1, js "salt", 1767225600000000⟩

/-- An e-mail of 161 code units, whose lower-case form just fits its column. -/
theorem accepted_signup_stored_iff_sample :
    ∃ user, (exec (registerUser sampleBcrypt sampleLower sampleRegisterEnv
      (sampleSignup (js "User") (List.replicate 159 0x130 ++ js "@x"))) ⟨[], []⟩).1 = .ok user := by
  refine (accepted_signup_stored_iff documented_sampleBcrypt (by decide +kernel) ?_).2.mpr ?_
  · simp
  · exact ⟨by decide +kernel, by decide +kernel, by decide +kernel, by simp⟩

/-- A full name with a U+0000. -/
def nulSignup : SignupBody := sampleSignup [0x61, 0, 0x62] (js "test@example.com")

/-- An e-mail of 161 code units that has 321 code points in lower case. -/
def longSignup : SignupBody := sampleSignup (js "User") (List.replicate 160 0x130 ++ js "@")

/-- **Accepted bodies that end in an internal error.** -/
theorem accepted_signup_not_stored :
    (signupSchema nulSignup = [] ∧
      (exec (registerUser sampleBcrypt sampleLower sampleRegisterEnv nulSignup) ⟨[], []⟩).1 =
        .error (.database .character_not_in_repertoire) ∧
      errorHandler (.database .character_not_in_repertoire) =
        ⟨500, js "Internal server error", .INTERNAL_ERROR, none⟩) ∧
    (signupSchema longSignup = [] ∧
      (exec (registerUser sampleBcrypt sampleLower sampleRegisterEnv longSignup) ⟨[], []⟩).1 =
        .error (.database .string_data_right_truncation) ∧
      errorHandler (.database .string_data_right_truncation) =
        ⟨500, js "Internal server error", .INTERNAL_ERROR, none⟩) :=
  ⟨⟨by decide +kernel, by decide +kernel, rfl⟩, by decide +kernel, by decide +kernel, rfl⟩

end MernChat
