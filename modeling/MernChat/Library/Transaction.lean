import Mathlib.Control.Lawful
import Mathlib.Tactic.SplitIfs

/-!
# Programs over a transactional store

A program changes a store and may throw; what it changed before it threw stays. The body of a
transaction works on a copy of the store that only `COMMIT` makes visible: whatever is thrown on
the way is rolled back. An operation that fails either had no effect, or took effect without its
caller learning of it; the latter can be told apart only for a `COMMIT`.

## Main definitions

* `Tx σ ε α`, `Prog σ ε α`: bodies of transactions, and programs
* `Fault`, `statement`: failing operations
* `Tx.Storeless`: parts that do not look at the store
* `query`, `transaction`: a single statement, and a transaction, as programs
* `transactionIf`, `effect`: a transaction that may be taken back, and a change outside of one
* `Commits faults body s a t`: the transaction takes effect

## Main results

* `Tx.bind_eq_ok`, `statement_eq_ok`: a body runs to its end when its statements do
* `exec_transaction_of_commits`, `exec_transaction_of_not_commits`, `exec_transaction_cases`: a
  transaction is made whole or not at all
-/

namespace Library

variable {σ ε α β : Type}

/-- The body of a transaction over the store `σ`. -/
abbrev Tx (σ ε : Type) := StateT σ (Except ε)

/-- A program over the store `σ`. -/
abbrev Prog (σ ε : Type) := ExceptT ε (StateM σ)

/-- How an operation fails. -/
inductive Fault (ε : Type)
  /-- It had no effect. -/
  | rejected (error : ε)
  /-- It took effect, and its acknowledgement was lost. -/
  | unacknowledged (error : ε)
deriving DecidableEq

/-- The error the caller sees. -/
def Fault.error : Fault ε → ε
  | .rejected e => e
  | .unacknowledged e => e

/-! ## Bodies of transactions -/

/-- A statement that may meet a fault. -/
def statement (fault : Option (Fault ε)) (x : Tx σ ε α) : Tx σ ε α :=
  match fault with
  | none => x
  | some f => throw f.error

/-- A condition the body checks. -/
def Tx.require (p : Prop) [Decidable p] (e : ε) : Tx σ ε Unit := if p then pure () else throw e

/-- A value computed without the store, which may fail. -/
def Tx.ofExcept {δ : Type} (err : δ → ε) : Except δ α → Tx σ ε α
  | .ok a => pure a
  | .error e => throw (err e)

/-- A value that must exist. -/
def Tx.ofOption (e : ε) : Option α → Tx σ ε α
  | some a => pure a
  | none => throw e

theorem Tx.pure_eq_ok {a b : α} {s t : σ} :
    (pure a : Tx σ ε α) s = .ok (b, t) ↔ a = b ∧ s = t := by
  show Except.ok (a, s) = Except.ok (b, t) ↔ _
  simp

theorem Tx.throw_eq_ok {e : ε} {s : σ} {r : α × σ} :
    (throw e : Tx σ ε α) s = .ok r ↔ False := by
  show Except.error e = Except.ok r ↔ _
  simp

/-- **A body runs to its end** when each of its parts does. -/
theorem Tx.bind_eq_ok {x : Tx σ ε α} {f : α → Tx σ ε β} {s : σ} {r : β × σ} :
    (x >>= f) s = .ok r ↔ ∃ a t, x s = .ok (a, t) ∧ f a t = .ok r := by
  show (x s).bind (fun p => f p.1 p.2) = .ok r ↔ _
  cases hx : x s with
  | error e => simp [Except.bind]
  | ok p =>
    obtain ⟨a, t⟩ := p
    constructor
    · intro h
      exact ⟨a, t, rfl, h⟩
    · rintro ⟨a', t', h, h'⟩
      cases h
      exact h'

theorem Tx.bind_of_ok {x : Tx σ ε α} {s t : σ} {a : α} (h : x s = .ok (a, t))
    (f : α → Tx σ ε β) : (x >>= f) s = f a t := by
  show (x s).bind (fun p => f p.1 p.2) = _
  rw [h]
  rfl

/-- A body stops at the first part that throws. -/
theorem Tx.bind_of_error {x : Tx σ ε α} {s : σ} {e : ε} (h : x s = .error e)
    (f : α → Tx σ ε β) : (x >>= f) s = .error e := by
  show (x s).bind (fun p => f p.1 p.2) = _
  rw [h]
  rfl

theorem Tx.get_eq_ok {s a t : σ} : (get : Tx σ ε σ) s = .ok (a, t) ↔ a = s ∧ t = s := by
  show Except.ok (s, s) = Except.ok (a, t) ↔ _
  simp [eq_comm]

theorem Tx.set_eq_ok {u : Unit} {s r t : σ} :
    (set r : Tx σ ε PUnit) s = .ok (u, t) ↔ t = r := by
  show Except.ok (PUnit.unit, r) = Except.ok (u, t) ↔ _
  simp [eq_comm]

theorem Tx.ofExcept_eq_ok {δ : Type} {err : δ → ε} {x : Except δ α} {s t : σ} {a : α} :
    (Tx.ofExcept err x : Tx σ ε α) s = .ok (a, t) ↔ x = .ok a ∧ t = s := by
  cases x with
  | ok b =>
    show (pure b : Tx σ ε α) s = .ok (a, t) ↔ _
    rw [Tx.pure_eq_ok]
    simp [eq_comm]
  | error e =>
    show (throw (err e) : Tx σ ε α) s = .ok (a, t) ↔ _
    simp [Tx.throw_eq_ok]

theorem Tx.ofOption_eq_ok {e : ε} {o : Option α} {s t : σ} {a : α} :
    (Tx.ofOption e o : Tx σ ε α) s = .ok (a, t) ↔ o = some a ∧ t = s := by
  cases o with
  | some b =>
    show (pure b : Tx σ ε α) s = .ok (a, t) ↔ _
    rw [Tx.pure_eq_ok]
    simp [eq_comm]
  | none =>
    show (throw e : Tx σ ε α) s = .ok (a, t) ↔ _
    simp [Tx.throw_eq_ok]

theorem statement_eq_ok {fault : Option (Fault ε)} {x : Tx σ ε α} {s : σ} {r : α × σ} :
    statement fault x s = .ok r ↔ fault = none ∧ x s = .ok r := by
  cases fault with
  | none => simp [statement]
  | some f =>
    show (throw f.error : Tx σ ε α) s = .ok r ↔ _
    simp [Tx.throw_eq_ok]

theorem Tx.require_eq_ok {p : Prop} [Decidable p] {e : ε} {s t : σ} :
    (Tx.require p e : Tx σ ε Unit) s = .ok ((), t) ↔ p ∧ s = t := by
  unfold Tx.require
  split_ifs with h
  · simp [Tx.pure_eq_ok, h]
  · simp [Tx.throw_eq_ok, h]

/-! ### Parts that do not look at the store -/

/-- The part reads and changes nothing of the store. -/
def Tx.Storeless (x : Tx σ ε α) : Prop :=
  (∃ a, ∀ s, x s = .ok (a, s)) ∨ ∃ e, ∀ s, x s = .error e

theorem Tx.Storeless.pure (a : α) : (Pure.pure a : Tx σ ε α).Storeless := Or.inl ⟨a, fun _ => rfl⟩

theorem Tx.Storeless.throw (e : ε) : (MonadExcept.throw e : Tx σ ε α).Storeless :=
  Or.inr ⟨e, fun _ => rfl⟩

theorem Tx.Storeless.bind {x : Tx σ ε α} {f : α → Tx σ ε β} (hx : x.Storeless)
    (hf : ∀ a, (f a).Storeless) : (x >>= f).Storeless := by
  -- the first part throws in every store, or goes on with one value in all of them
  rcases hx with ⟨a, hx⟩ | ⟨e, hx⟩
  · rcases hf a with ⟨b, hf⟩ | ⟨e, hf⟩
    · refine Or.inl ⟨b, ?_⟩
      intro s
      rw [Tx.bind_of_ok (hx s), hf]
    · refine Or.inr ⟨e, ?_⟩
      intro s
      rw [Tx.bind_of_ok (hx s), hf]
  · exact Or.inr ⟨e, fun s => Tx.bind_of_error (hx s) f⟩

theorem Tx.Storeless.ofOption (e : ε) (o : Option α) :
    (Tx.ofOption e o : Tx σ ε α).Storeless := by
  cases o with
  | some a => exact .pure a
  | none => exact .throw e

theorem Tx.Storeless.ofExcept {δ : Type} (err : δ → ε) (x : Except δ α) :
    (Tx.ofExcept err x : Tx σ ε α).Storeless := by
  cases x with
  | ok a => exact .pure a
  | error e => exact .throw (err e)

theorem Tx.Storeless.require (p : Prop) [Decidable p] (e : ε) :
    (Tx.require p e : Tx σ ε Unit).Storeless := by
  unfold Tx.require
  split_ifs
  · exact .pure ()
  · exact .throw e

/-! ## Programs -/

/-- The outcome of a program, and the store it leaves. -/
def exec (p : Prog σ ε α) (s : σ) : Except ε α × σ := p.run.run s

/-- A condition a program checks. -/
def require (p : Prop) [Decidable p] (e : ε) : Prog σ ε Unit := if p then pure () else throw e

/-- One statement on its own; the callers below only read with it. -/
def query (fault : Option (Fault ε)) (x : Tx σ ε α) : Prog σ ε α := ExceptT.mk fun s =>
  match statement fault x s with
  | .ok (a, t) => (.ok a, t)
  | .error e => (.error e, s)

/-- The faults of the operations around the statements of a transaction. -/
structure TxFaults (ε : Type) where
  connect : Option (Fault ε) := none
  begin : Option (Fault ε) := none
  commit : Option (Fault ε) := none
  rollback : Option (Fault ε) := none

/-- The error after `ROLLBACK`: its own if it fails. The transaction ends without effect either
way, a failing `ROLLBACK` with the connection. -/
def TxFaults.rollbackError (faults : TxFaults ε) (e : ε) : ε :=
  (faults.rollback.map Fault.error).getD e

/-- `connect`, `BEGIN`, the statements, `COMMIT`; a throw after `connect` is followed by
`ROLLBACK`. -/
def transaction (faults : TxFaults ε) (body : Tx σ ε α) : Prog σ ε α := ExceptT.mk fun s =>
  match faults.connect with
  | some f => (.error f.error, s)
  | none =>
    match statement faults.begin body s with
    | .error e => (.error (faults.rollbackError e), s)
    | .ok (a, t) =>
      match faults.commit with
      | none => (.ok a, t)
      | some (.rejected e) => (.error (faults.rollbackError e), s)
      | some (.unacknowledged e) => (.error (faults.rollbackError e), t)

@[simp] theorem exec_pure (a : α) (s : σ) : exec (pure a : Prog σ ε α) s = (.ok a, s) := rfl

@[simp] theorem exec_throw (e : ε) (s : σ) : exec (throw e : Prog σ ε α) s = (.error e, s) := rfl

/-- A program whose first part throws stops there. -/
theorem exec_bind_error {p : Prog σ ε α} {f : α → Prog σ ε β} {s t : σ} {e : ε}
    (h : exec p s = (.error e, t)) : exec (p >>= f) s = (.error e, t) := by
  unfold exec at h ⊢
  rw [ExceptT.run_bind, StateT.run_bind, h]
  rfl

/-- A program goes on where its first part ended. -/
theorem exec_bind_ok {p : Prog σ ε α} {f : α → Prog σ ε β} {s t : σ} {a : α}
    (h : exec p s = (.ok a, t)) : exec (p >>= f) s = exec (f a) t := by
  unfold exec at h ⊢
  rw [ExceptT.run_bind, StateT.run_bind, h]
  rfl

/-- **A program returns** when each of its parts does. -/
theorem exec_bind_eq_ok {p : Prog σ ε α} {f : α → Prog σ ε β} {s t : σ} {b : β} :
    exec (p >>= f) s = (.ok b, t) ↔ ∃ a r, exec p s = (.ok a, r) ∧ exec (f a) r = (.ok b, t) := by
  constructor
  · intro h
    cases hp : exec p s with
    | mk o r =>
      cases o with
      | ok a =>
        rw [exec_bind_ok hp] at h
        exact ⟨a, r, rfl, h⟩
      | error e =>
        rw [exec_bind_error hp] at h
        cases h
  · rintro ⟨a, r, hp, hf⟩
    rw [exec_bind_ok hp, hf]

/-- A program throws where one of its parts does. -/
theorem exec_bind_eq_error {p : Prog σ ε α} {f : α → Prog σ ε β} {s t : σ} {e : ε} :
    exec (p >>= f) s = (.error e, t) ↔ exec p s = (.error e, t) ∨
      ∃ a r, exec p s = (.ok a, r) ∧ exec (f a) r = (.error e, t) := by
  cases hp : exec p s with
  | mk o r =>
    cases o with
    | ok a =>
      rw [exec_bind_ok hp]
      constructor
      · intro h
        exact Or.inr ⟨a, r, rfl, h⟩
      · rintro (h | ⟨_, _, h, h'⟩)
        · cases h
        · cases h
          exact h'
    | error e' =>
      rw [exec_bind_error hp]
      constructor
      · intro h
        cases h
        exact Or.inl rfl
      · rintro (h | ⟨_, _, h, -⟩)
        · cases h
          rfl
        · cases h

theorem exec_require_pos {p : Prop} [Decidable p] (h : p) (e : ε) (s : σ) :
    exec (require p e : Prog σ ε Unit) s = (.ok (), s) := by
  unfold require
  rw [if_pos h, exec_pure]

theorem exec_require_neg {p : Prop} [Decidable p] (h : ¬ p) (e : ε) (s : σ) :
    exec (require p e : Prog σ ε Unit) s = (.error e, s) := by
  unfold require
  rw [if_neg h, exec_throw]

theorem exec_query_def (fault : Option (Fault ε)) (x : Tx σ ε α) (s : σ) :
    exec (query fault x) s = match statement fault x s with
      | .ok (a, t) => (.ok a, t)
      | .error e => (.error e, s) := rfl

theorem exec_query {fault : Option (Fault ε)} {x : Tx σ ε α} {s : σ} {r : Except ε α × σ}
    (h : exec (query fault x) s = r) :
    (∃ a t, fault = none ∧ x s = .ok (a, t) ∧ r = (.ok a, t)) ∨
      ((∀ q, statement fault x s ≠ .ok q) ∧ ∃ e, r = (.error e, s)) := by
  rw [exec_query_def] at h
  cases hx : statement fault x s with
  | ok q =>
    obtain ⟨a, t⟩ := q
    rw [hx] at h
    rw [statement_eq_ok] at hx
    exact Or.inl ⟨a, t, hx.1, hx.2, h.symm⟩
  | error e =>
    rw [hx] at h
    refine Or.inr ⟨?_, e, h.symm⟩
    intro q hq
    cases hq

theorem exec_query_ok {fault : Option (Fault ε)} {x : Tx σ ε α} {s t : σ} {a : α}
    (hf : fault = none) (hx : x s = .ok (a, t)) : exec (query fault x) s = (.ok a, t) := by
  rw [exec_query_def, statement_eq_ok.mpr ⟨hf, hx⟩]

theorem exec_query_error {fault : Option (Fault ε)} {x : Tx σ ε α} {s : σ} {e : ε}
    (hf : fault = none) (hx : x s = .error e) : exec (query fault x) s = (.error e, s) := by
  rw [exec_query_def, hf]
  simp only [statement, hx]

theorem exec_require_eq_ok {p : Prop} [Decidable p] {e : ε} {s t : σ} {u : Unit} :
    exec (require p e : Prog σ ε Unit) s = (.ok u, t) ↔ p ∧ t = s := by
  unfold require
  split_ifs with h
  · simp [h, eq_comm]
  · simp [h]

theorem exec_require_eq_error {p : Prop} [Decidable p] {e e' : ε} {s t : σ} :
    exec (require p e : Prog σ ε Unit) s = (.error e', t) ↔ ¬ p ∧ e' = e ∧ t = s := by
  unfold require
  split_ifs with h
  · simp [h]
  · simp [h, eq_comm]

theorem exec_query_eq_ok {x : Tx σ ε α} {s t : σ} {a : α} :
    exec (query none x) s = (.ok a, t) ↔ x s = .ok (a, t) := by
  constructor
  · intro h
    rcases exec_query h with ⟨b, r, -, hx, hr⟩ | ⟨-, e, hr⟩
    · obtain ⟨hb, rfl⟩ := Prod.mk.inj hr
      rw [hx, Except.ok.inj hb]
    · cases hr
  · exact exec_query_ok rfl

/-! ## How a transaction ends -/

/-- The transaction takes effect: every operation succeeds, up to a `COMMIT` that is not
rejected. -/
structure Commits (faults : TxFaults ε) (body : Tx σ ε α) (s : σ) (a : α) (t : σ) : Prop where
  connect : faults.connect = none
  begin : faults.begin = none
  body : body s = .ok (a, t)
  commit : ∀ e, faults.commit ≠ some (.rejected e)

theorem exec_transaction (faults : TxFaults ε) (body : Tx σ ε α) (s : σ) :
    exec (transaction faults body) s = match faults.connect with
      | some f => (.error f.error, s)
      | none =>
        match statement faults.begin body s with
        | .error e => (.error (faults.rollbackError e), s)
        | .ok (a, t) =>
          match faults.commit with
          | none => (.ok a, t)
          | some (.rejected e) => (.error (faults.rollbackError e), s)
          | some (.unacknowledged e) => (.error (faults.rollbackError e), t) := rfl

/-- **A transaction that takes effect** returns, unless its `COMMIT` is not acknowledged. -/
theorem exec_transaction_of_commits {faults : TxFaults ε} {body : Tx σ ε α} {s t : σ} {a : α}
    (h : Commits faults body s a t) :
    faults.commit = none ∧ exec (transaction faults body) s = (.ok a, t) ∨
      faults.commit ≠ none ∧ ∃ e, exec (transaction faults body) s = (.error e, t) := by
  have hb : statement faults.begin body s = .ok (a, t) := statement_eq_ok.mpr ⟨h.begin, h.body⟩
  rw [exec_transaction, h.connect, hb]
  cases hc : faults.commit with
  | none => exact Or.inl ⟨rfl, rfl⟩
  | some f =>
    -- a COMMIT that was not acknowledged has taken effect
    cases f with
    | rejected e => exact absurd hc (h.commit e)
    | unacknowledged e => exact Or.inr ⟨by simp, _, rfl⟩

/-- A statement that throws ends its transaction, here without other faults. -/
theorem exec_transaction_error {faults : TxFaults ε} {body : Tx σ ε α} {s : σ} {e : ε}
    (hconnect : faults.connect = none) (hbegin : faults.begin = none)
    (hrollback : faults.rollback = none) (h : body s = .error e) :
    exec (transaction faults body) s = (.error e, s) := by
  simp only [exec_transaction, hconnect, hbegin, statement, h, TxFaults.rollbackError, hrollback]
  rfl

/-- **A transaction that does not take effect** throws and changes nothing. -/
theorem exec_transaction_of_not_commits {faults : TxFaults ε} {body : Tx σ ε α} {s : σ}
    (h : ∀ a t, ¬ Commits faults body s a t) :
    ∃ e, exec (transaction faults body) s = (.error e, s) := by
  rw [exec_transaction]
  -- by the operation that fails first; without one the transaction takes effect
  cases hconn : faults.connect with
  | some f => exact ⟨_, rfl⟩
  | none =>
    cases hb : statement faults.begin body s with
    | error e => exact ⟨_, rfl⟩
    | ok r =>
      obtain ⟨a, t⟩ := r
      rw [statement_eq_ok] at hb
      cases hc : faults.commit with
      | none =>
        refine absurd ⟨hconn, hb.1, hb.2, ?_⟩ (h a t)
        simp [hc]
      | some f =>
        cases f with
        | rejected e => exact ⟨_, rfl⟩
        | unacknowledged e =>
          refine absurd ⟨hconn, hb.1, hb.2, ?_⟩ (h a t)
          simp [hc]

/-- **A transaction is made whole or not at all**, whether it returns or throws. -/
theorem exec_transaction_cases {faults : TxFaults ε} {body : Tx σ ε α} {s t : σ} {o : Except ε α}
    (h : exec (transaction faults body) s = (o, t)) :
    (t = s ∧ ∃ e, o = .error e) ∨
      ∃ a, body s = .ok (a, t) ∧ (o = .ok a ∨ ∃ e, o = .error e) := by
  by_cases hcommits : ∃ a t, Commits faults body s a t
  · obtain ⟨a, t', hc⟩ := hcommits
    rcases exec_transaction_of_commits hc with ⟨-, hexec⟩ | ⟨-, e, hexec⟩
    · obtain ⟨rfl, rfl⟩ := Prod.mk.inj (hexec.symm.trans h)
      exact Or.inr ⟨a, hc.body, Or.inl rfl⟩
    · obtain ⟨rfl, rfl⟩ := Prod.mk.inj (hexec.symm.trans h)
      exact Or.inr ⟨a, hc.body, Or.inr ⟨e, rfl⟩⟩
  · simp only [not_exists] at hcommits
    obtain ⟨e, hexec⟩ := exec_transaction_of_not_commits hcommits
    obtain ⟨rfl, rfl⟩ := Prod.mk.inj (hexec.symm.trans h)
    exact Or.inl ⟨rfl, e, rfl⟩

/-! ## Transactions that are taken back, and effects outside of transactions -/

/-- A transaction whose code issues the `ROLLBACK` itself, and returns, where `keep` does not hold
of what the statements return. -/
def transactionIf (faults : TxFaults ε) (undo : Option (Fault ε)) (keep : α → Bool)
    (body : Tx σ ε α) : Prog σ ε α := ExceptT.mk fun s =>
  match faults.connect with
  | some f => (.error f.error, s)
  | none =>
    match statement faults.begin body s with
    | .error e => (.error (faults.rollbackError e), s)
    | .ok (a, t) =>
      if keep a then
        match faults.commit with
        | none => (.ok a, t)
        | some (.rejected e) => (.error (faults.rollbackError e), s)
        | some (.unacknowledged e) => (.error (faults.rollbackError e), t)
      else
        match undo with
        | none => (.ok a, s)
        | some f => (.error (faults.rollbackError f.error), s)

/-- A change outside of a transaction. -/
def effect (fault : Option (Fault ε)) (f : σ → σ) : Prog σ ε Unit := ExceptT.mk fun s =>
  match fault with
  | none => (.ok (), f s)
  | some (.rejected e) => (.error e, s)
  | some (.unacknowledged e) => (.error e, f s)

theorem exec_transactionIf (faults : TxFaults ε) (undo : Option (Fault ε)) (keep : α → Bool)
    (body : Tx σ ε α) (s : σ) :
    exec (transactionIf faults undo keep body) s = match faults.connect with
      | some f => (.error f.error, s)
      | none =>
        match statement faults.begin body s with
        | .error e => (.error (faults.rollbackError e), s)
        | .ok (a, t) =>
          if keep a then
            match faults.commit with
            | none => (.ok a, t)
            | some (.rejected e) => (.error (faults.rollbackError e), s)
            | some (.unacknowledged e) => (.error (faults.rollbackError e), t)
          else
            match undo with
            | none => (.ok a, s)
            | some f => (.error (faults.rollbackError f.error), s) := rfl

/-- **How such a transaction ends**: it throws and changes nothing, or its statements ran to their
end, and it was committed or taken back. -/
theorem exec_transactionIf_cases {faults : TxFaults ε} {undo : Option (Fault ε)}
    {keep : α → Bool} {body : Tx σ ε α} {s t : σ} {o : Except ε α}
    (h : exec (transactionIf faults undo keep body) s = (o, t)) :
    (t = s ∧ ∃ e, o = .error e) ∨
      (∃ a, keep a = true ∧ body s = .ok (a, t) ∧ (o = .ok a ∨ ∃ e, o = .error e)) ∨
      ∃ a r, keep a = false ∧ body s = .ok (a, r) ∧ t = s ∧ o = .ok a := by
  rw [exec_transactionIf] at h
  cases hconn : faults.connect with
  | some f =>
    rw [hconn] at h
    obtain ⟨rfl, rfl⟩ := Prod.mk.inj h
    exact Or.inl ⟨rfl, _, rfl⟩
  | none =>
    rw [hconn] at h
    cases hb : statement faults.begin body s with
    | error e =>
      rw [hb] at h
      obtain ⟨rfl, rfl⟩ := Prod.mk.inj h
      exact Or.inl ⟨rfl, _, rfl⟩
    | ok r =>
      obtain ⟨a, r⟩ := r
      rw [hb] at h
      obtain ⟨-, hbody⟩ := statement_eq_ok.mp hb
      cases hk : keep a with
      | true =>
        simp only [hk, if_true] at h
        -- a `COMMIT` that is rejected leaves nothing, any other leaves all
        split at h <;> obtain ⟨rfl, rfl⟩ := Prod.mk.inj h
        · exact Or.inr (Or.inl ⟨a, hk, hbody, Or.inl rfl⟩)
        · exact Or.inl ⟨rfl, _, rfl⟩
        · exact Or.inr (Or.inl ⟨a, hk, hbody, Or.inr ⟨_, rfl⟩⟩)
      | false =>
        simp only [hk, Bool.false_eq_true, if_false] at h
        split at h <;> obtain ⟨rfl, rfl⟩ := Prod.mk.inj h
        · exact Or.inr (Or.inr ⟨a, r, hk, hbody, rfl, rfl⟩)
        · exact Or.inl ⟨rfl, _, rfl⟩

/-- When a transaction is taken back without an error. -/
theorem exec_transactionIf_undone {faults : TxFaults ε} {undo : Option (Fault ε)}
    {keep : α → Bool} {body : Tx σ ε α} {s t : σ} {a : α} (hk : keep a = false) :
    exec (transactionIf faults undo keep body) s = (.ok a, t) ↔
      t = s ∧ faults.connect = none ∧ faults.begin = none ∧ undo = none ∧
        ∃ r, body s = .ok (a, r) := by
  constructor
  · intro h
    rcases exec_transactionIf_cases h with ⟨-, e, he⟩ | ⟨b, hb, -, ho⟩ | ⟨b, r, -, hbody, rfl, ho⟩
    · cases he
    · rcases ho with ho | ⟨e, he⟩
      · obtain rfl := Except.ok.inj ho
        rw [hk] at hb
        cases hb
      · cases he
    · obtain rfl := Except.ok.inj ho
      rw [exec_transactionIf] at h
      cases hconn : faults.connect with
      | some f => simp [hconn] at h
      | none =>
        cases hbegin : faults.begin with
        | some f =>
          rw [hconn, hbegin] at h
          cases (Prod.mk.inj h).1
        | none =>
          cases hu : undo with
          | some f => simp [hconn, hbegin, statement, hbody, hk, hu] at h
          | none => exact ⟨rfl, rfl, rfl, rfl, r, hbody⟩
  · rintro ⟨rfl, hconn, hbegin, hu, r, hbody⟩
    rw [exec_transactionIf, hconn, statement_eq_ok.mpr ⟨hbegin, hbody⟩]
    simp only [hk, Bool.false_eq_true, if_false, hu]

/-- **How an effect ends.** -/
theorem exec_effect_cases {fault : Option (Fault ε)} {f : σ → σ} {s t : σ} {o : Except ε Unit}
    (h : exec (effect fault f) s = (o, t)) :
    (fault = none ∧ o = .ok () ∧ t = f s) ∨
      fault ≠ none ∧ (∃ e, o = .error e) ∧ (t = s ∨ t = f s) := by
  cases fault with
  | none =>
    obtain ⟨rfl, rfl⟩ := Prod.mk.inj h
    exact Or.inl ⟨rfl, rfl, rfl⟩
  | some fault =>
    cases fault with
    | rejected e =>
      obtain ⟨rfl, rfl⟩ := Prod.mk.inj h
      exact Or.inr ⟨by simp, ⟨e, rfl⟩, Or.inl rfl⟩
    | unacknowledged e =>
      obtain ⟨rfl, rfl⟩ := Prod.mk.inj h
      exact Or.inr ⟨by simp, ⟨e, rfl⟩, Or.inr rfl⟩

end Library
