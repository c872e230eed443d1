import MernChat.Auth.SessionSystem

/-!
# What a step of authentication leaves alone

A step is one of a request, a logout or a deletion. It leaves the other requests where they are,
forgets nothing of the history, and changes the users only where it adds or deletes one. A session
keeps its user and its end: a refresh does not prolong it.

## Main definitions

* `AuthAction.request`: the request that takes the step
* `SessionRow.SameSession`: one row before and after a refresh
* `AuthFrame`: what a step leaves alone, and what it adds

## Main results

* `authStep_frame`: every step does so
-/

namespace MernChat

open Library

/-- The request of a step, or none. -/
def AuthAction.request : AuthAction → Option Nat
  | .signup n .. | .login n _ | .createSession n .. | .issueToken n _ | .refresh n .. | .findUser n
  | .logoutAll n | .revokeAll n | .present n .. | .finishGate n | .abort n => some n
  | .logout _ | .deleteUser _ => none

/-- The step writes the table of the users. -/
def AuthAction.writesUsers : AuthAction → Bool
  | .signup .. | .deleteUser _ => true
  | _ => false

/-- The rows differ in their last use only. -/
structure SessionRow.SameSession (old row : SessionRow) : Prop where
  id : row.id = old.id
  userId : row.userId = old.userId
  tokenHash : row.tokenHash = old.tokenHash
  expiresAt : row.expiresAt = old.expiresAt

theorem SessionRow.SameSession.refl (row : SessionRow) : row.SameSession row :=
  ⟨rfl, rfl, rfl, rfl⟩

/-- The step stores the row, for the user its request has authenticated. -/
inductive AuthAction.Stores (hashToken : JsString → JsString) (s : AuthState) :
    AuthAction → SessionRow → Prop
  | intro {n : Nat} {refreshToken : JsString} {now dbNow : Int} {row : SessionRow}
      (request : s.requests n = some (.authenticated row.userId.toText))
      (tokenHash : row.tokenHash = hashToken refreshToken)
      (expiresAt : row.expiresAt = pgTimestamp (now + REFRESH_TOKEN_TTL_MS)) :
      Stores hashToken s (.createSession n row.id refreshToken now dbNow) row

/-- What a step leaves alone, and what it adds. -/
structure AuthFrame (hashToken : JsString → JsString) (s : AuthState) (a : AuthAction)
    (t : AuthState) : Prop where
  requests : ∀ m, a.request ≠ some m → t.requests m = s.requests m
  grows : Extends s t
  users : a.writesUsers = false → t.db.users = s.db.users
  sessions : ∀ row ∈ t.db.sessions, (∃ old ∈ s.db.sessions, old.SameSession row) ∨
    a.Stores hashToken s row

section Frames

variable {J : Jwt} {hashToken : JsString → JsString} {s t : AuthState} {a : AuthAction} {n : Nat}

theorem requests_setRequest (s : AuthState) {n m : Nat} (h : m ≠ n) (r : Option AuthRequest) :
    (s.setRequest n r).requests m = s.requests m := if_neg h

theorem requests_setRequest_self (s : AuthState) (n : Nat) (r : Option AuthRequest) :
    (s.setRequest n r).requests n = r := if_pos rfl

/-- A request goes on, and nothing else happens. -/
theorem AuthFrame.setRequest (ha : a.request = some n) (r : Option AuthRequest) :
    AuthFrame hashToken s a (s.setRequest n r) where
  requests m hm := by
    rw [ha, ne_eq, Option.some.injEq] at hm
    exact requests_setRequest s (Ne.symm hm) r
  grows := ⟨fun _ hx => hx, fun _ hx => hx⟩
  users _ := rfl
  sessions row hrow := Or.inl ⟨row, hrow, .refl row⟩

/-- A request goes on after its statement, or fails with it. -/
theorem AuthFrame.runStatement (ha : a.request = some n) {α : Type} {x : AuthTx α}
    {f : α → AuthState → AuthState}
    (hf : ∀ r db, x s.db = .ok (r, db) → AuthFrame hashToken s a (f r { s with db })) :
    AuthFrame hashToken s a (runStatement s n x f) := by
  unfold MernChat.runStatement
  cases hx : x s.db with
  | error e => exact .setRequest ha none
  | ok r => exact hf r.1 r.2 hx

/-- Sessions are removed. -/
theorem AuthFrame.remove (p q : SessionRow → Bool) {db : AuthDatabase}
    (husers : db.users = s.db.users) (hdb : db.sessions = s.db.sessions.filter q) :
    AuthFrame hashToken s a (s.remove p db) where
  requests _ _ := rfl
  grows := ⟨fun _ hx => hx, fun _ hx => hx⟩
  users _ := husers
  sessions row hrow := by
    have hmem : row ∈ s.db.sessions.filter q := hdb ▸ hrow
    exact Or.inl ⟨row, (List.mem_filter.mp hmem).1, .refl row⟩

/-- A step of the same request afterwards. -/
theorem AuthFrame.thenSetRequest (h : AuthFrame hashToken s a t) (ha : a.request = some n)
    (r : Option AuthRequest) : AuthFrame hashToken s a (t.setRequest n r) where
  requests m hm := by
    rw [← h.requests m hm]
    rw [ha, ne_eq, Option.some.injEq] at hm
    exact requests_setRequest t (Ne.symm hm) r
  grows := ⟨h.grows.minted, h.grows.created⟩
  users := h.users
  sessions := h.sessions

theorem AuthFrame.mint (ha : a.request = some n) (token userId sessionId : JsString)
    (r : Option AuthRequest) :
    AuthFrame hashToken s a ((s.mint token userId sessionId).setRequest n r) := by
  have hmint : AuthFrame hashToken s a (s.mint token userId sessionId) :=
    ⟨fun _ _ => rfl, ⟨fun _ hx => List.mem_cons_of_mem _ hx, fun _ hx => hx⟩, fun _ => rfl,
      fun row hrow => Or.inl ⟨row, hrow, .refl row⟩⟩
  exact hmint.thenSetRequest ha r

theorem sameSession_touch (row : SessionRow) (now : Int) : row.SameSession (row.touch now) :=
  ⟨rfl, rfl, rfl, rfl⟩

/-- **Every step leaves alone** what is not its own. -/
theorem authStep_frame (hB : Bound J s) (h : authStep J hashToken s a = some t) :
    AuthFrame hashToken s a t := by
  cases a with
  | signup n id input now =>
    obtain rfl := Option.some.inj h
    refine .runStatement rfl fun user db hx => .thenSetRequest ?_ rfl _
    obtain ⟨row, -, -, -, -, -, -, -, -, -, -, rfl, rfl⟩ := createUser_eq_ok.mp hx
    exact ⟨fun _ _ => rfl, ⟨fun _ hx => hx, fun _ hx => hx⟩, (Bool.noConfusion ·),
      fun row hrow => Or.inl ⟨row, hrow, .refl row⟩⟩
  | login n email =>
    obtain rfl := Option.some.inj h
    refine .runStatement rfl fun user db hx => ?_
    obtain ⟨e, -, rfl, rfl⟩ := findUserByNormalizedEmail_eq_ok.mp hx
    exact .setRequest rfl _
  | createSession n id refreshToken now dbNow =>
    simp only [authStep] at h
    split at h
    · rename_i userId hreq
      obtain rfl := Option.some.inj h
      refine .runStatement rfl fun session db hx => ?_
      obtain ⟨row, rfl, huser, hhash, hexpires, -, -, -, -, -, -, rfl, rfl⟩ :=
        createSession_eq_ok.mp hx
      -- the column reads back the id the request was given
      have hrow : userId = row.userId.toText := by
        obtain ⟨u, rfl⟩ := hB.requests n _ hreq
        rw [Uuid.parse_toText] at huser
        rw [Option.some.inj huser]
      refine ⟨fun m hm => ?_, ⟨fun _ hx => hx, fun _ hx => List.mem_cons_of_mem _ hx⟩,
        fun _ => rfl, fun other hother => ?_⟩
      · exact requests_setRequest { s with db := _ } (fun heq => hm (congrArg some heq.symm)) _
      · rcases List.mem_append.mp hother with hold | hnew
        · exact Or.inl ⟨other, hold, .refl other⟩
        · obtain rfl := List.mem_singleton.mp hnew
          exact Or.inr ⟨hrow ▸ hreq, hhash, hexpires⟩
    · cases h
  | issueToken n now =>
    simp only [authStep] at h
    split at h
    · obtain rfl := Option.some.inj h
      exact .mint rfl _ _ _ _
    · obtain rfl := Option.some.inj h
      exact .mint rfl _ _ _ _
    · cases h
  | refresh n refreshToken now =>
    obtain rfl := Option.some.inj h
    refine .runStatement rfl fun session db hx => .thenSetRequest ?_ rfl _
    obtain ⟨rfl, rfl⟩ := findActiveSessionByTokenHash_eq_ok.mp hx
    refine ⟨fun _ _ => rfl, ⟨fun _ hx => hx, fun _ hx => hx⟩, fun _ => rfl, fun row hrow => ?_⟩
    -- the row has been used, and ends when it did
    obtain ⟨old, hold, rfl⟩ := List.mem_map.mp hrow
    refine Or.inl ⟨old, hold, ?_⟩
    split
    · exact sameSession_touch old now
    · exact .refl old
  | findUser n =>
    simp only [authStep] at h
    split at h
    · obtain rfl := Option.some.inj h
      refine .runStatement rfl fun user db hx => ?_
      obtain ⟨u, -, -, rfl⟩ := findPublicById_eq_ok.mp hx
      exact .setRequest rfl _
    · cases h
  | logout refreshToken =>
    obtain rfl := Option.some.inj h
    exact .remove _ _ rfl rfl
  | logoutAll n =>
    simp only [authStep] at h
    split at h
    · obtain rfl := Option.some.inj h
      exact .setRequest rfl _
    · cases h
  | revokeAll n =>
    simp only [authStep] at h
    split at h
    · split at h
      · rename_i u hu
        obtain rfl := Option.some.inj h
        have hremove : AuthFrame hashToken s (.revokeAll n) (s.remove (fun row => row.userId == u)
            (revokeAllSessionsForUser u s.db)) := .remove _ (fun row => !(row.userId == u)) rfl rfl
        exact hremove.thenSetRequest rfl _
      · obtain rfl := Option.some.inj h
        exact .setRequest rfl _
    · cases h
  | deleteUser id =>
    obtain rfl := Option.some.inj h
    exact ⟨fun _ _ => rfl, ⟨fun _ hx => hx, fun _ hx => hx⟩, (Bool.noConfusion ·),
      fun row hrow => Or.inl ⟨row, mem_sessions_deleteUser hrow, .refl row⟩⟩
  | present n gate token now =>
    obtain rfl := Option.some.inj h
    exact .setRequest rfl _
  | finishGate n =>
    simp only [authStep] at h
    split at h
    · obtain rfl := Option.some.inj h
      exact .setRequest rfl _
    · cases h
  | abort n =>
    obtain rfl := Option.some.inj h
    exact .setRequest rfl _

end Frames

end MernChat
