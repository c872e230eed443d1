import MernChat.Library.Table
import MernChat.Library.Transition
import MernChat.Runtime.Text
import Mathlib.Data.List.Lex
import Mathlib.Logic.Function.Basic

/-!
# Migrations

A runner takes a lock of its session, reads the directory, and gives each file a transaction that
checks the version, executes the statements of the file and records the version. Any operation may
fail, and any session may end; a session that ends gives up its transaction and its lock. The
statements of a file change the rest of the database, whatever that is, and each may fail there.

## Main definitions

* `MigrationsDirectory`, `sortedFiles`, `pending`: the files, and those that are not recorded
* `RunnerPhase`, `MigrationState`: where a runner is, and what all runners share
* `migrationSystem`: the steps of any number of runners
-/

namespace MernChat

open Library

variable {δ : Type}

/-! ## Files -/

/-- An entry of the directory. A statement changes the database, or fails. -/
structure MigrationFile (δ : Type) where
  name : JsString
  sql : List (δ → Option δ)

/-- The names in a directory are distinct. -/
structure MigrationsDirectory (δ : Type) where
  entries : List (MigrationFile δ)
  names : (entries.map MigrationFile.name).Nodup

def MigrationFile.isSql (file : MigrationFile δ) : Bool := (js ".sql").isSuffixOf file.name

/-- `file.replace(/\.sql$/, "")`. -/
def MigrationFile.version (file : MigrationFile δ) : JsString :=
  if file.isSql then file.name.take (file.name.length - (js ".sql").length) else file.name

/-- The order of `sort()`, by code units. -/
def MigrationFile.sortKey (file : MigrationFile δ) : List Nat := file.name.map UInt16.toNat

/-- The files a runner goes through. -/
def sortedFiles (dir : MigrationsDirectory δ) : List (MigrationFile δ) :=
  sortBy MigrationFile.sortKey (dir.entries.filter MigrationFile.isSql)

/-- The files that are not recorded, in the order of the runner. -/
def pending (dir : MigrationsDirectory δ) (recorded : List JsString) : List (MigrationFile δ) :=
  (sortedFiles dir).filter fun file => !recorded.contains file.version

/-- The statements of a file, one after the other. -/
def runSql : List (δ → Option δ) → δ → Option δ
  | [], data => some data
  | statement :: sql, data => (statement data).bind (runSql sql)

/-- The files one after the other. -/
def applyFiles : List (MigrationFile δ) → δ → Option δ
  | [], data => some data
  | file :: files, data => (runSql file.sql data).bind (applyFiles files)

/-! ## Runners -/

/-- What is known of a run that has the lock: the versions recorded when it took it, whether another
run had succeeded by then, and the versions whose SQL it has committed. -/
structure MigrationRun where
  before : List JsString
  rerun : Bool
  executed : List JsString

/-- What a runner is about to do. Within the transaction of `file` it has a copy of the data, and of
the versions. -/
inductive RunnerPhase (δ : Type)
  | idle
  | connected
  | locked (run : MigrationRun)
  /-- Between two files: the next ones are `files`. -/
  | between (run : MigrationRun) (files : List (MigrationFile δ))
  /-- After `BEGIN`. -/
  | checking (run : MigrationRun) (file : MigrationFile δ) (files : List (MigrationFile δ))
  | executing (run : MigrationRun) (file : MigrationFile δ) (files : List (MigrationFile δ))
      (data : δ) (sql : List (δ → Option δ))
  | committing (run : MigrationRun) (file : MigrationFile δ) (files : List (MigrationFile δ))
      (data : δ) (versions : List JsString)
  /-- In the `finally` block, to unlock. -/
  | closing (run : MigrationRun) (ok : Bool)
  /-- Resolved or rejected; without a run when it never had the lock. -/
  | done (run : Option MigrationRun) (ok : Bool)

/-- The database, the owner of the advisory lock, and the runners; with the versions whose SQL has
committed, and whether a run has succeeded. -/
structure MigrationState (δ : Type) where
  schemaMigrations : Option (List JsString)
  data : δ
  lock : Option Nat
  runners : Nat → RunnerPhase δ
  committed : List JsString
  succeeded : Bool

inductive MigrationAction
  /-- The operation the runner is about to do succeeds. -/
  | advance (runner : Nat)
  /-- It fails without an effect. -/
  | fail (runner : Nat)
  /-- A `COMMIT` takes effect, and the runner is told that it failed. -/
  | commitUnacknowledged (runner : Nat)
  /-- The session of the runner ends. -/
  | crash (runner : Nat)

/-- The run of a runner that has taken the lock and not come to its end. -/
def RunnerPhase.run : RunnerPhase δ → Option MigrationRun
  | .idle | .connected | .done _ _ => none
  | .locked run | .between run _ | .checking run _ _ | .executing run _ _ _ _
  | .committing run _ _ _ _ | .closing run _ => some run

def MigrationRun.commit (run : MigrationRun) (file : MigrationFile δ) : MigrationRun :=
  { run with executed := run.executed ++ [file.version] }

namespace MigrationState

/-- The versions recorded; none before the table is created. -/
def recorded (s : MigrationState δ) : List JsString := s.schemaMigrations.getD []

def setRunner (s : MigrationState δ) (r : Nat) (phase : RunnerPhase δ) : MigrationState δ :=
  { s with runners := Function.update s.runners r phase }

@[simp] theorem setRunner_self (s : MigrationState δ) (r : Nat) (phase : RunnerPhase δ) :
    (s.setRunner r phase).runners r = phase := Function.update_self ..

theorem setRunner_of_ne (s : MigrationState δ) {r r' : Nat} (h : r' ≠ r) (phase : RunnerPhase δ) :
    (s.setRunner r phase).runners r' = s.runners r' := Function.update_of_ne h ..

/-- `pg_advisory_unlock`, or the end of the session. -/
def releaseLock (s : MigrationState δ) (r : Nat) : MigrationState δ :=
  { s with lock := if s.lock = some r then none else s.lock }

/-- `CREATE TABLE IF NOT EXISTS schema_migrations`. -/
def ensureMigrationsTable (s : MigrationState δ) : MigrationState δ :=
  { s with schemaMigrations := some s.recorded }

/-- The `COMMIT` of a migration. -/
def commit (s : MigrationState δ) (file : MigrationFile δ) (data : δ) (versions : List JsString) :
    MigrationState δ :=
  { s with
    schemaMigrations := some versions
    data := data
    committed := s.committed ++ [file.version] }

/-- The next operation of `runMigrations`, and of `applyMigration` within a transaction. -/
def advance (dir : MigrationsDirectory δ) (s : MigrationState δ) (r : Nat) :
    Option (MigrationState δ) :=
  match s.runners r with
  | .idle => some (s.setRunner r .connected)
  | .connected =>
    -- another session waits for the lock
    if s.lock = none then
      some ({ s with lock := some r }.setRunner r
        (.locked { before := s.recorded, rerun := s.succeeded, executed := [] }))
    else none
  | .locked run =>
    some (s.ensureMigrationsTable.setRunner r (.between run (sortedFiles dir)))
  | .between run [] => some (s.setRunner r (.closing run true))
  | .between run (file :: files) => some (s.setRunner r (.checking run file files))
  | .checking run file files =>
    if s.recorded.contains file.version then some (s.setRunner r (.between run files))
    else some (s.setRunner r (.executing run file files s.data file.sql))
  | .executing run file files data (statement :: sql) =>
    match statement data with
    | some data => some (s.setRunner r (.executing run file files data sql))
    | none => some (s.setRunner r (.closing run false))
  | .executing run file files data [] =>
    -- `INSERT INTO schema_migrations`, whose key is the version
    if s.recorded.contains file.version then some (s.setRunner r (.closing run false))
    else
      some (s.setRunner r (.committing run file files data (s.recorded ++ [file.version])))
  | .committing run file files data versions =>
    some ((s.commit file data versions).setRunner r (.between (run.commit file) files))
  | .closing run ok =>
    some ({ s.releaseLock r with succeeded := s.succeeded || ok }.setRunner r (.done (some run) ok))
  | .done _ _ => none

/-- A failure rolls back, and goes on to the `finally` block when the lock is taken; a session that
cannot unlock keeps the lock until it ends. -/
def fail (s : MigrationState δ) (r : Nat) : Option (MigrationState δ) :=
  match s.runners r with
  | .done _ _ => none
  | .closing run _ => some (s.setRunner r (.done (some run) false))
  | phase =>
    match phase.run with
    | some run => some (s.setRunner r (.closing run false))
    | none => some (s.setRunner r (.done none false))

def commitUnacknowledged (s : MigrationState δ) (r : Nat) : Option (MigrationState δ) :=
  match s.runners r with
  | .committing run file _ data versions =>
    some ((s.commit file data versions).setRunner r (.closing (run.commit file) false))
  | _ => none

/-- The end of a session releases its lock and discards its transaction. -/
def crash (s : MigrationState δ) (r : Nat) : Option (MigrationState δ) :=
  match s.runners r with
  | .idle => none
  | .done _ _ => some (s.releaseLock r)
  | phase => some ((s.releaseLock r).setRunner r (.done phase.run false))

def step (dir : MigrationsDirectory δ) (s : MigrationState δ) :
    MigrationAction → Option (MigrationState δ)
  | .advance r => s.advance dir r
  | .fail r => s.fail r
  | .commitUnacknowledged r => s.commitUnacknowledged r
  | .crash r => s.crash r

/-- Before all runs, with the versions and the data there are. -/
def initial (table : Option (List JsString)) (data : δ) : MigrationState δ where
  schemaMigrations := table
  data := data
  lock := none
  runners := fun _ => .idle
  committed := []
  succeeded := false

end MigrationState

/-- Any number of runners, in any order of their steps. -/
def migrationSystem (dir : MigrationsDirectory δ) (table : Option (List JsString)) (data : δ) :
    TransitionSystem (MigrationState δ) MigrationAction where
  init s := s = .initial table data
  step := MigrationState.step dir

/-! ## Versions -/

/-- A name ends with the version taken off it. -/
theorem MigrationFile.name_eq {file : MigrationFile δ} (h : file.isSql = true) :
    file.name = file.version ++ js ".sql" := by
  rw [version, if_pos h]
  obtain ⟨base, hbase⟩ := List.isSuffixOf_iff_suffix.mp h
  rw [← hbase, List.length_append, Nat.add_sub_cancel, List.take_left]

theorem mem_sortedFiles {dir : MigrationsDirectory δ} {file : MigrationFile δ} :
    file ∈ sortedFiles dir ↔ file ∈ dir.entries ∧ file.isSql = true := by
  rw [sortedFiles, mem_sortBy, List.mem_filter]

/-- Files have versions of their own. -/
theorem nodup_versions (dir : MigrationsDirectory δ) :
    ((sortedFiles dir).map MigrationFile.version).Nodup := by
  have hnames : ((sortedFiles dir).map MigrationFile.name).Nodup := by
    have hperm := perm_sortBy MigrationFile.sortKey (dir.entries.filter MigrationFile.isSql)
    exact ((hperm.map MigrationFile.name).nodup_iff).mpr
      (dir.names.sublist (List.filter_sublist.map _))
  have hmap : (sortedFiles dir).map MigrationFile.name =
      ((sortedFiles dir).map MigrationFile.version).map fun version => version ++ js ".sql" := by
    rw [List.map_map]
    exact List.map_congr_left fun file hfile => MigrationFile.name_eq (mem_sortedFiles.mp hfile).2
  rw [hmap] at hnames
  exact hnames.of_map _

theorem eq_of_version {dir : MigrationsDirectory δ} {file file' : MigrationFile δ}
    (h : file ∈ sortedFiles dir) (h' : file' ∈ sortedFiles dir)
    (hv : file.version = file'.version) : file = file' :=
  eq_of_key (nodup_versions dir) h h' hv

theorem mem_pending {dir : MigrationsDirectory δ} {recorded : List JsString}
    {file : MigrationFile δ} :
    file ∈ pending dir recorded ↔ file ∈ sortedFiles dir ∧ file.version ∉ recorded := by
  simp [pending]

/-- The files are in the order of their names. -/
theorem pairwise_sortedFiles (dir : MigrationsDirectory δ) :
    (sortedFiles dir).Pairwise fun a b => a.sortKey < b.sortKey := by
  apply pairwise_lt_sortBy
  have hnames : ((dir.entries.filter MigrationFile.isSql).map MigrationFile.name).Nodup :=
    dir.names.sublist (List.filter_sublist.map _)
  have hkey : (dir.entries.filter MigrationFile.isSql).map MigrationFile.sortKey =
      ((dir.entries.filter MigrationFile.isSql).map MigrationFile.name).map
        fun name => name.map UInt16.toNat := by
    rw [List.map_map]
    rfl
  rw [hkey]
  exact hnames.map (List.map_injective_iff.mpr fun _ _ h => UInt16.toNat_inj.mp h)

/-! ## Executing files -/

theorem applyFiles_append (files files' : List (MigrationFile δ)) (data : δ) :
    applyFiles (files ++ files') data = (applyFiles files data).bind (applyFiles files') := by
  induction files generalizing data with
  | nil => rfl
  | cons file files ih =>
    simp only [List.cons_append, applyFiles]
    cases runSql file.sql data with
    | none => rfl
    | some data => exact ih data

end MernChat
