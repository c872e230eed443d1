import MernChat.Chat.Repositories
import MernChat.Library.Table
import Mathlib.Data.Prod.Lex

/-!
# Users and sessions in the database

The tables behind authentication. A user is found by id or by e-mail; deleting one deletes the
user's sessions.

## Main definitions

* `SessionRow`, `AuthDatabase`: the tables
* `createUser`, `findUserByNormalizedEmail`, `findPublicById`, `listUsersExcept`: the statements on
  users
* `deleteUser`: a deletion, with its cascade
-/

namespace MernChat

open Library

structure SessionRow where
  id : Uuid
  userId : Uuid
  tokenHash : JsString
  expiresAt : Int
  lastUsedAt : Int
  createdAt : Int
  updatedAt : Int
deriving DecidableEq

structure AuthDatabase where
  users : List UserRow
  sessions : List SessionRow

/-- Statements on the tables behind authentication. -/
abbrev AuthTx := Tx AuthDatabase Thrown

/-- A parameter of a `UUID` column. -/
def uuidOf (s : JsString) : AuthTx Uuid := Tx.ofExcept .database (uuidParam s)

/-- A parameter of a `TEXT` column. -/
def textOf (s : JsString) : AuthTx JsString :=
  Tx.ofOption (.database .character_not_in_repertoire) (pgText s)

/-- A constraint of a table. -/
def ensure (p : Prop) [Decidable p] (code : SqlState) : AuthTx Unit :=
  Tx.require p (.database code)

/-- A value of a `VARCHAR(n)` column. -/
def varcharOf (n : Nat) (s : JsString) : AuthTx JsString := do
  let text ← textOf s
  ensure (codePoints text ≤ n) .string_data_right_truncation
  return text

structure CreateUserInput where
  fullname : JsString
  email : JsString
  passwordHash : JsString

/-- `INSERT INTO users … RETURNING`. -/
def createUser (id : Uuid) (input : CreateUserInput) (now : Int) : AuthTx PostgresUser := do
  let fullname ← varcharOf 100 input.fullname
  let email ← varcharOf 320 input.email
  let passwordHash ← textOf input.passwordHash
  let db ← get
  ensure (db.users.any (fun u => u.id == id) = false) .unique_violation
  ensure (db.users.any (fun u => u.email == email) = false) .unique_violation
  let row : UserRow := { id, fullname, email, passwordHash, createdAt := now, updatedAt := now }
  set { db with users := db.users ++ [row] }
  return mapUser row

/-- `SELECT … FROM users WHERE email = $1`. -/
def findUserByNormalizedEmail (email : JsString) : AuthTx (Option PostgresUser) := do
  let email ← textOf email
  let db ← get
  return (db.users.find? fun u => u.email == email).map mapUser

/-- `SELECT … FROM users WHERE id = $1`, without the password. -/
def findPublicById (id : JsString) : AuthTx (Option PublicUser) := do
  let id ← uuidOf id
  let db ← get
  return (db.users.find? fun u => u.id == id).map fun row => toPublicUser (mapUser row)

/-- `SELECT … FROM users WHERE id <> $1 ORDER BY created_at ASC, id ASC`. -/
def listUsersExcept (userId : JsString) : AuthTx (List PublicUser) := do
  let id ← uuidOf userId
  let db ← get
  let others := sortBy (fun u : UserRow => toLex (u.createdAt, u.id))
    (db.users.filter fun u => !(u.id == id))
  return others.map fun row => ⟨row.id.toText, row.fullname, row.email⟩

/-- `DELETE FROM users WHERE id = $1`, with `ON DELETE CASCADE` on the sessions. -/
def deleteUser (id : Uuid) (db : AuthDatabase) : AuthDatabase where
  users := db.users.filter fun u => !(u.id == id)
  sessions := db.sessions.filter fun s => !(s.userId == id)

section Statements

variable {db db' : AuthDatabase}

@[simp] theorem uuidOf_eq_ok {s : JsString} {u : Uuid} :
    uuidOf s db = .ok (u, db') ↔ Uuid.parse s = some u ∧ db' = db := by
  rw [uuidOf, Tx.ofExcept_eq_ok, uuidParam_eq_ok]

@[simp] theorem textOf_eq_ok {s t : JsString} :
    textOf s db = .ok (t, db') ↔ pgText s = some t ∧ db' = db := by
  rw [textOf, Tx.ofOption_eq_ok]

@[simp] theorem ensure_eq_ok {p : Prop} [Decidable p] {code : SqlState} {u : Unit} :
    ensure p code db = .ok (u, db') ↔ p ∧ db = db' := Tx.require_eq_ok

theorem varcharOf_eq_ok {n : Nat} {s t : JsString} :
    varcharOf n s db = .ok (t, db') ↔ pgText s = some t ∧ codePoints t ≤ n ∧ db' = db := by
  simp only [varcharOf, Tx.bind_eq_ok, textOf_eq_ok, ensure_eq_ok, Tx.pure_eq_ok]
  constructor
  · rintro ⟨_, _, ⟨ht, rfl⟩, _, _, ⟨hn, rfl⟩, rfl, rfl⟩
    exact ⟨ht, hn, rfl⟩
  · rintro ⟨ht, hn, rfl⟩
    exact ⟨t, _, ⟨ht, rfl⟩, (), _, ⟨hn, rfl⟩, rfl, rfl⟩

theorem createUser_eq_ok {id : Uuid} {input : CreateUserInput} {now : Int} {r : PostgresUser} :
    createUser id input now db = .ok (r, db') ↔ ∃ row : UserRow,
      row.id = id ∧ pgText input.fullname = some row.fullname ∧ codePoints row.fullname ≤ 100 ∧
        pgText input.email = some row.email ∧ codePoints row.email ≤ 320 ∧
        pgText input.passwordHash = some row.passwordHash ∧ row.createdAt = now ∧
        row.updatedAt = now ∧ (∀ u ∈ db.users, u.id ≠ id) ∧ (∀ u ∈ db.users, u.email ≠ row.email) ∧
        r = mapUser row ∧ db' = { db with users := db.users ++ [row] } := by
  simp only [createUser, Tx.bind_eq_ok, varcharOf_eq_ok, textOf_eq_ok, Tx.get_eq_ok,
    ensure_eq_ok, Tx.set_eq_ok, Tx.pure_eq_ok, List.any_eq_false, beq_iff_eq]
  constructor
  · rintro ⟨fullname, _, ⟨hf, hfn, rfl⟩, email, _, ⟨he, hen, rfl⟩, hash, _, ⟨hp, rfl⟩, _, _,
      ⟨rfl, rfl⟩, _, _, ⟨hid, rfl⟩, _, _, ⟨hemail, rfl⟩, _, _, rfl, rfl, rfl⟩
    exact ⟨_, rfl, hf, hfn, he, hen, hp, rfl, rfl, hid, hemail, rfl, rfl⟩
  · rintro ⟨⟨_, fullname, email, hash, _, _⟩, rfl, hf, hfn, he, hen, hp, hc, hu, hid, hemail,
      rfl, rfl⟩
    simp only at hc hu
    subst hc hu
    exact ⟨fullname, _, ⟨hf, hfn, rfl⟩, email, _, ⟨he, hen, rfl⟩, hash, _, ⟨hp, rfl⟩, _, _,
      ⟨rfl, rfl⟩, (), _, ⟨hid, rfl⟩, (), _, ⟨hemail, rfl⟩, (), _, rfl, rfl, rfl⟩

theorem findUserByNormalizedEmail_eq_ok {email : JsString} {r : Option PostgresUser} :
    findUserByNormalizedEmail email db = .ok (r, db') ↔ ∃ e, pgText email = some e ∧
      r = (db.users.find? fun u => u.email == e).map mapUser ∧ db' = db := by
  simp only [findUserByNormalizedEmail, Tx.bind_eq_ok, textOf_eq_ok, Tx.get_eq_ok, Tx.pure_eq_ok]
  constructor
  · rintro ⟨e, _, ⟨he, rfl⟩, _, _, ⟨rfl, rfl⟩, rfl, rfl⟩
    exact ⟨e, he, rfl, rfl⟩
  · rintro ⟨e, he, rfl, rfl⟩
    exact ⟨e, _, ⟨he, rfl⟩, _, _, ⟨rfl, rfl⟩, rfl, rfl⟩

theorem findPublicById_eq_ok {id : JsString} {r : Option PublicUser} :
    findPublicById id db = .ok (r, db') ↔ ∃ u, Uuid.parse id = some u ∧
      r = (db.users.find? fun row => row.id == u).map (fun row => toPublicUser (mapUser row)) ∧
        db' = db := by
  simp only [findPublicById, Tx.bind_eq_ok, uuidOf_eq_ok, Tx.get_eq_ok, Tx.pure_eq_ok]
  constructor
  · rintro ⟨u, _, ⟨hu, rfl⟩, _, _, ⟨rfl, rfl⟩, rfl, rfl⟩
    exact ⟨u, hu, rfl, rfl⟩
  · rintro ⟨u, hu, rfl, rfl⟩
    exact ⟨u, _, ⟨hu, rfl⟩, _, _, ⟨rfl, rfl⟩, rfl, rfl⟩

end Statements

end MernChat
