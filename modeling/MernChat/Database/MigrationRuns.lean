import MernChat.Database.Migrations
import Mathlib.Data.List.Infix

/-!
# Migrations are applied once and in order

The owner of the lock is the only runner that writes. What it has gone through is recorded, and what
was recorded when it took the lock it skips; so that the next file it executes is the first one of
all that is not recorded.

## Main definitions

* `RunOf`, `PhaseInv`: how far a run has come, and what its transaction has done
* `AppliedPrefix`: the database is that after a first part of the pending files
* `MigratesInOrder`: what holds of the database and of every run

## Main results

* `migrates_in_order`: it does in every reachable state
-/

namespace MernChat

open Library

variable {δ : Type} {dir : MigrationsDirectory δ} {recorded : List JsString} {data : δ}

/-! ## What holds -/

/-- The database is as after the files of a first part of those pending at first, in sorted order,
and the versions recorded are those at first and those of these files. -/
structure AppliedPrefix (dir : MigrationsDirectory δ) (first : List JsString) (data₀ : δ)
    (files : List (MigrationFile δ)) (s : MigrationState δ) : Prop where
  part : files <+: pending dir first
  committed : s.committed = files.map MigrationFile.version
  recorded : s.recorded = first ++ files.map MigrationFile.version
  data : applyFiles files data₀ = some s.data

/-- What a run that has ended, or is to unlock, has done. -/
structure RunResult (dir : MigrationsDirectory δ) (recorded : List JsString) (run : MigrationRun)
    (ok : Bool) : Prop where
  /-- It has executed a first part of the files that were not recorded, -/
  executed : run.executed <+: (pending dir run.before).map MigrationFile.version
  /-- all of them if it succeeds, and then every file is recorded, -/
  complete : ok = true → run.executed = (pending dir run.before).map MigrationFile.version ∧
    ∀ file ∈ sortedFiles dir, file.version ∈ recorded
  /-- and nothing if a run had succeeded before. -/
  rerun : run.rerun = true → run.executed = []

/-- **Migrations apply exactly once and in order**, in a state of the runners. -/
structure MigratesInOrder (dir : MigrationsDirectory δ) (first : List JsString) (data₀ : δ)
    (s : MigrationState δ) : Prop where
  /-- No SQL commits twice. -/
  once : s.committed.Nodup
  /-- A version is recorded when it was at first, or its SQL has committed. -/
  recorded : ∀ version, version ∈ s.recorded ↔ version ∈ first ∨ version ∈ s.committed
  /-- The database is as after a first part of the pending files, which are in sorted order. -/
  database : ∃ files, AppliedPrefix dir first data₀ files s ∧
    files.Pairwise fun a b => a.sortKey < b.sortKey
  /-- What each run has done that is over. -/
  runs : ∀ r run ok, s.runners r = .done (some run) ok → RunResult dir s.recorded run ok
  /-- Only a run that had the lock succeeds. -/
  succeeds : ∀ r, s.runners r ≠ .done none true

/-! ## The invariant of a run -/

/-- A run has gone through the files before `rest`. -/
structure RunOf (dir : MigrationsDirectory δ) (recorded : List JsString) (run : MigrationRun)
    (through rest : List (MigrationFile δ)) : Prop where
  files : sortedFiles dir = through ++ rest
  gone : ∀ file ∈ through, file.version ∈ recorded
  recorded : recorded = run.before ++ run.executed
  executed : run.executed =
    (through.filter fun file => !run.before.contains file.version).map MigrationFile.version
  rerun : run.rerun = true → ∀ file ∈ sortedFiles dir, file.version ∈ run.before

/-- What holds of a runner, given the versions recorded and the data. -/
def PhaseInv (dir : MigrationsDirectory δ) (recorded : List JsString) (data : δ) :
    RunnerPhase δ → Prop
  | .idle | .connected => True
  | .locked run => RunOf dir recorded run [] (sortedFiles dir)
  | .between run files => ∃ through, RunOf dir recorded run through files
  | .checking run file files => ∃ through, RunOf dir recorded run through (file :: files)
  | .executing run file files copy sql =>
    (∃ through, RunOf dir recorded run through (file :: files)) ∧ file.version ∉ recorded ∧
      runSql file.sql data = runSql sql copy
  | .committing run file files copy versions =>
    (∃ through, RunOf dir recorded run through (file :: files)) ∧ file.version ∉ recorded ∧
      runSql file.sql data = some copy ∧ versions = recorded ++ [file.version]
  | .closing run ok => RunResult dir recorded run ok
  | .done (some run) ok => RunResult dir recorded run ok
  | .done none ok => ok = false

namespace RunOf

variable {run : MigrationRun} {through rest files : List (MigrationFile δ)}
  {file : MigrationFile δ}

/-- What a run has executed is a first part of what was pending. -/
theorem executed_prefix (h : RunOf dir recorded run through rest) :
    run.executed <+: (pending dir run.before).map MigrationFile.version := by
  rw [h.executed, pending, h.files, List.filter_append, List.map_append]
  exact List.prefix_append _ _

/-- After a success nothing is pending. -/
theorem executed_eq_nil (h : RunOf dir recorded run through rest) (hr : run.rerun = true) :
    run.executed = [] := by
  -- all files were recorded when the run took the lock
  have hnone : pending dir run.before = [] := by
    rw [List.eq_nil_iff_forall_not_mem]
    intro file hfile
    obtain ⟨hmem, hnot⟩ := mem_pending.mp hfile
    exact hnot (h.rerun hr file hmem)
  have hprefix := h.executed_prefix
  rw [hnone] at hprefix
  exact List.prefix_nil.mp hprefix

/-- A run that fails leaves what it has executed. -/
theorem failed (h : RunOf dir recorded run through rest) :
    RunResult dir recorded run false :=
  ⟨h.executed_prefix, fun hok => absurd hok Bool.false_ne_true, h.executed_eq_nil⟩

/-- A run that has gone through all files has executed all that were pending. -/
theorem succeeded (h : RunOf dir recorded run through []) : RunResult dir recorded run true := by
  refine ⟨h.executed_prefix, fun _ => ⟨?_, ?_⟩, h.executed_eq_nil⟩
  · rw [h.executed, pending, h.files, List.append_nil]
  · intro file hfile
    rw [h.files, List.append_nil] at hfile
    exact h.gone file hfile

/-- A recorded file is skipped: it was recorded when the run took the lock. -/
theorem skip (h : RunOf dir recorded run through (file :: files))
    (hrec : file.version ∈ recorded) : RunOf dir recorded run (through ++ [file]) files := by
  refine ⟨by rw [h.files, List.append_assoc]; rfl, ?_, h.recorded, ?_, h.rerun⟩
  · intro f hf
    rcases List.mem_append.mp hf with hf | hf
    · exact h.gone f hf
    · exact List.mem_singleton.mp hf ▸ hrec
  · have hbefore : file.version ∈ run.before := by
      rw [h.recorded] at hrec
      refine (List.mem_append.mp hrec).resolve_right fun hex => ?_
      -- the run has not executed this file, as versions are distinct
      rw [h.executed] at hex
      obtain ⟨f, hf, hv⟩ := List.mem_map.mp hex
      have hnodup := nodup_versions dir
      rw [h.files, List.map_append, List.nodup_append] at hnodup
      exact hnodup.2.2 f.version (List.mem_map_of_mem (List.mem_of_mem_filter hf)) file.version
        (by simp) hv
    rw [h.executed, List.filter_append, List.map_append]
    simp [hbefore]

/-- The file of a commit is executed and recorded. -/
theorem commit (h : RunOf dir recorded run through (file :: files))
    (hnot : file.version ∉ recorded) :
    RunOf dir (recorded ++ [file.version]) (run.commit file) (through ++ [file]) files := by
  refine ⟨by rw [h.files, List.append_assoc]; rfl, ?_, ?_, ?_, h.rerun⟩
  · intro f hf
    rcases List.mem_append.mp hf with hf | hf
    · exact List.mem_append_left _ (h.gone f hf)
    · exact List.mem_append_right _ (List.mem_singleton.mp hf ▸ List.mem_singleton_self _)
  · show recorded ++ [file.version] = run.before ++ (run.executed ++ [file.version])
    rw [h.recorded, List.append_assoc]
  · have hbefore : file.version ∉ run.before := by
      intro hmem
      rw [h.recorded] at hnot
      exact hnot (List.mem_append_left _ hmem)
    show run.executed ++ [file.version] = _
    rw [h.executed, List.filter_append, List.map_append]
    simp [MigrationRun.commit, hbefore]

end RunOf

/-- What is over stays so as more is recorded. -/
theorem RunResult.mono {run : MigrationRun} {ok : Bool} {recorded' : List JsString}
    (h : RunResult dir recorded run ok) (hsub : recorded ⊆ recorded') :
    RunResult dir recorded' run ok :=
  ⟨h.executed, fun hok => ⟨(h.complete hok).1, fun file hf => hsub ((h.complete hok).2 file hf)⟩,
    h.rerun⟩

/-- A runner without the lock is not concerned by what another one commits. -/
theorem PhaseInv.mono {phase : RunnerPhase δ} {recorded' : List JsString} {data' : δ}
    (h : PhaseInv dir recorded data phase) (hrun : phase.run = none) (hsub : recorded ⊆ recorded') :
    PhaseInv dir recorded' data' phase := by
  -- the phases without the lock: before it is taken, and after the run
  match phase, hrun, h with
  | .idle, _, _ => trivial
  | .connected, _, _ => trivial
  | .done none _, _, h => exact h
  | .done (some _) _, _, h => exact RunResult.mono h hsub

/-- A runner that fails leaves what it has executed. -/
theorem PhaseInv.failed {phase : RunnerPhase δ} {run : MigrationRun}
    (h : PhaseInv dir recorded data phase) (hrun : phase.run = some run) :
    RunResult dir recorded run false := by
  match phase, hrun, h with
  | .locked _, rfl, h => exact RunOf.failed h
  | .between _ _, rfl, ⟨_, h⟩ => exact h.failed
  | .checking _ _ _, rfl, ⟨_, h⟩ => exact h.failed
  | .executing _ _ _ _ _, rfl, ⟨⟨_, h⟩, _⟩ => exact h.failed
  | .committing _ _ _ _ _, rfl, ⟨⟨_, h⟩, _⟩ => exact h.failed
  | .closing _ _, rfl, h => exact ⟨h.executed, fun hok => absurd hok Bool.false_ne_true, h.rerun⟩

/-! ## The next file -/

/-- **The file a run executes next** is the first that is not recorded at all. -/
theorem AppliedPrefix.next {first : List JsString} {data₀ : δ} {s : MigrationState δ}
    {run : MigrationRun} {applied through files : List (MigrationFile δ)} {file : MigrationFile δ}
    (h : AppliedPrefix dir first data₀ applied s)
    (hrun : RunOf dir s.recorded run through (file :: files)) (hnot : file.version ∉ s.recorded) :
    applied ++ [file] <+: pending dir first := by
  obtain ⟨rest, hrest⟩ := h.part
  have hfirst : file.version ∉ first := by
    rw [h.recorded] at hnot
    exact fun hmem => hnot (List.mem_append_left _ hmem)
  -- the pending files, split where the run stands
  have hsplit : applied ++ rest = (through.filter fun f => !first.contains f.version) ++
      file :: files.filter fun f => !first.contains f.version := by
    rw [hrest, pending, hrun.files, List.filter_append]
    simp [hfirst]
  have hmem : ∀ f ∈ applied, f ∈ sortedFiles dir := by
    intro f hf
    have hp : f ∈ pending dir first := hrest ▸ List.mem_append_left _ hf
    exact (mem_pending.mp hp).1
  suffices hfile : ∃ tail, rest = file :: tail by
    obtain ⟨tail, rfl⟩ := hfile
    exact ⟨tail, by rw [← hrest, List.append_assoc]; rfl⟩
  rcases List.append_eq_append_iff.mp hsplit with ⟨c, hc, hr⟩ | ⟨c, hc, hr⟩
  · cases c with
    | nil => exact ⟨_, hr⟩
    | cons f c =>
      -- a file the run has gone through is recorded, and so it was applied, and once only
      exfalso
      have hf : f ∈ through.filter fun f => !first.contains f.version := by
        rw [hc]
        simp
      obtain ⟨hthrough, hpending⟩ := List.mem_filter.mp hf
      have hsorted : f ∈ sortedFiles dir := by
        rw [hrun.files]
        exact List.mem_append_left _ hthrough
      have hrec := hrun.gone f hthrough
      rw [h.recorded, List.mem_append] at hrec
      have happlied := hrec.resolve_left (by simpa using hpending)
      obtain ⟨f', hf', hv⟩ := List.mem_map.mp happlied
      obtain rfl := eq_of_version (hmem f' hf') hsorted hv
      have hnodup : (through.filter fun f => !first.contains f.version).Nodup := by
        have hall := (nodup_versions dir).of_map
        rw [hrun.files, List.nodup_append] at hall
        exact hall.1.filter _
      rw [hc, List.nodup_append] at hnodup
      exact hnodup.2.2 f' hf' f' List.mem_cons_self rfl
  · cases c with
    | nil => exact ⟨_, hr.symm⟩
    | cons f c =>
      -- the file itself would have been applied, and so recorded
      exfalso
      obtain rfl := (List.cons.inj hr).1
      apply hnot
      rw [h.recorded, hc]
      simp

/-! ## The invariant of the system -/

/-- The invariant. Only the owner of the lock is within its run, and once a run has succeeded all
files are recorded. -/
structure MigrationInv (dir : MigrationsDirectory δ) (first : List JsString) (data₀ : δ)
    (s : MigrationState δ) : Prop where
  applied : ∃ files, AppliedPrefix dir first data₀ files s
  owner : ∀ r run, (s.runners r).run = some run → s.lock = some r
  phases : ∀ r, PhaseInv dir s.recorded s.data (s.runners r)
  succeeded : s.succeeded = true → ∀ file ∈ sortedFiles dir, file.version ∈ s.recorded

namespace MigrationInv

variable {first : List JsString} {data₀ : δ} {s t : MigrationState δ} {r : Nat}
  {phase : RunnerPhase δ}

/-- A step that leaves the database alone, and goes to a phase whose invariant holds. -/
theorem setRunner (h : MigrationInv dir first data₀ s) (hrec : t.recorded = s.recorded)
    (hdata : t.data = s.data) (hcom : t.committed = s.committed) (hrunners : t.runners = s.runners)
    (hsucc : t.succeeded = true → ∀ file ∈ sortedFiles dir, file.version ∈ s.recorded)
    (hlock : ∀ r', r' ≠ r → s.lock = some r' → t.lock = some r')
    (hphase : PhaseInv dir s.recorded s.data phase)
    (hown : ∀ run, phase.run = some run → t.lock = some r) :
    MigrationInv dir first data₀ (t.setRunner r phase) := by
  refine ⟨?applied, ?owner, ?phases, ?succeeded⟩
  case applied =>
    obtain ⟨files, hfiles⟩ := h.applied
    exact ⟨files, hfiles.part, hcom.trans hfiles.committed, hrec.trans hfiles.recorded,
      hfiles.data.trans (congrArg some hdata.symm)⟩
  case owner =>
    intro r' run hrun
    show t.lock = some r'
    by_cases hr : r' = r
    · subst hr
      rw [MigrationState.setRunner_self] at hrun
      exact hown run hrun
    · rw [MigrationState.setRunner_of_ne _ hr, hrunners] at hrun
      exact hlock r' hr (h.owner r' run hrun)
  case phases =>
    intro r'
    show PhaseInv dir t.recorded t.data _
    rw [hrec, hdata]
    by_cases hr : r' = r
    · subst hr
      rw [MigrationState.setRunner_self]
      exact hphase
    · rw [MigrationState.setRunner_of_ne _ hr, hrunners]
      exact h.phases r'
  case succeeded =>
    intro hs
    show ∀ file ∈ sortedFiles dir, file.version ∈ t.recorded
    rw [hrec]
    exact hsucc hs

/-- A step of a runner that keeps the lock as it is. -/
theorem goto (h : MigrationInv dir first data₀ s)
    (hphase : PhaseInv dir s.recorded s.data phase)
    (hown : ∀ run, phase.run = some run → s.lock = some r) :
    MigrationInv dir first data₀ (s.setRunner r phase) :=
  h.setRunner rfl rfl rfl rfl h.succeeded (fun _ _ hl => hl) hphase hown

/-- A runner gives up the lock when its run is over. -/
theorem release (h : MigrationInv dir first data₀ s) (hrun : phase.run = none)
    (hphase : PhaseInv dir s.recorded s.data phase) (ok : Bool)
    (hok : ok = true → ∀ file ∈ sortedFiles dir, file.version ∈ s.recorded) :
    MigrationInv dir first data₀
      ({ s.releaseLock r with succeeded := s.succeeded || ok }.setRunner r phase) := by
  refine h.setRunner rfl rfl rfl rfl ?_ ?_ hphase ?_
  · intro hs
    rcases Bool.or_eq_true_iff.mp hs with hs | hs
    · exact h.succeeded hs
    · exact hok hs
  · intro r' hne hl
    show (if s.lock = some r then none else s.lock) = some r'
    rw [if_neg, hl]
    rw [hl, Option.some.injEq]
    exact hne
  · intro run hsome
    rw [hrun] at hsome
    cases hsome

/-- **A commit** records the next pending file. -/
theorem commit (h : MigrationInv dir first data₀ s) {run : MigrationRun} {file : MigrationFile δ}
    {files : List (MigrationFile δ)} {copy : δ} {versions : List JsString}
    (hr : s.runners r = .committing run file files copy versions)
    (hphase : ∀ through, RunOf dir (s.recorded ++ [file.version]) (run.commit file) through files →
      PhaseInv dir (s.recorded ++ [file.version]) copy phase)
    (hown : ∀ run, phase.run = some run → s.lock = some r) :
    MigrationInv dir first data₀ ((s.commit file copy versions).setRunner r phase) := by
  have hinv := h.phases r
  rw [hr] at hinv
  obtain ⟨⟨through, hrun⟩, hnot, hsql, rfl⟩ := hinv
  obtain ⟨applied, happlied⟩ := h.applied
  -- the file is the next one for the table too, whichever run commits it
  have hnext := happlied.next hrun hnot
  have hsub : s.recorded ⊆ s.recorded ++ [file.version] := List.subset_append_left _ _
  refine ⟨⟨applied ++ [file], hnext, ?_, ?_, ?_⟩, ?owner, ?phases, ?succeeded⟩
  · show s.committed ++ [file.version] = _
    rw [happlied.committed, List.map_append]
    rfl
  · show s.recorded ++ [file.version] = _
    rw [happlied.recorded, List.map_append, List.append_assoc]
    rfl
  · show applyFiles (applied ++ [file]) data₀ = some copy
    rw [applyFiles_append, happlied.data, Option.bind_some, applyFiles, hsql]
    rfl
  case owner =>
    intro r' run' hrun'
    show s.lock = some r'
    by_cases hr' : r' = r
    · subst hr'
      rw [MigrationState.setRunner_self] at hrun'
      exact hown run' hrun'
    · rw [MigrationState.setRunner_of_ne _ hr'] at hrun'
      exact h.owner r' run' hrun'
  case phases =>
    intro r'
    show PhaseInv dir (s.recorded ++ [file.version]) copy _
    by_cases hr' : r' = r
    · subst hr'
      rw [MigrationState.setRunner_self]
      exact hphase _ (hrun.commit hnot)
    · rw [MigrationState.setRunner_of_ne _ hr']
      -- another runner cannot have the lock
      have hnone : (s.runners r').run = none := by
        cases hsome : (s.runners r').run with
        | none => rfl
        | some run' =>
          have hlock := h.owner r' run' hsome
          rw [h.owner r run (by rw [hr]; rfl), Option.some.injEq] at hlock
          exact absurd hlock.symm hr'
      exact (h.phases r').mono hnone hsub
  case succeeded =>
    intro hs f hf
    exact hsub (h.succeeded hs f hf)

/-- A runner takes the free lock. -/
theorem takeLock (h : MigrationInv dir first data₀ s) (hl : s.lock = none) :
    MigrationInv dir first data₀ ({ s with lock := some r }.setRunner r
      (.locked { before := s.recorded, rerun := s.succeeded, executed := [] })) := by
  refine h.setRunner rfl rfl rfl rfl h.succeeded ?_ ?_ fun _ _ => rfl
  · -- nobody has the lock
    intro r' _ hl'
    rw [hl] at hl'
    cases hl'
  · exact ⟨rfl, by simp, by simp, rfl, h.succeeded⟩

/-- **The next operation of a runner.** -/
theorem advance (h : MigrationInv dir first data₀ s) (hst : s.advance dir r = some t) :
    MigrationInv dir first data₀ t := by
  have hinv := h.phases r
  have howner := h.owner r
  unfold MigrationState.advance at hst
  cases hr : s.runners r with
  | idle =>
    simp only [hr] at hst
    exact Option.some.inj hst ▸ h.goto trivial (by simp [RunnerPhase.run])
  | connected =>
    simp only [hr] at hst
    split_ifs at hst with hl
    exact Option.some.inj hst ▸ h.takeLock hl
  | locked run =>
    simp only [hr] at hst hinv howner
    refine Option.some.inj hst ▸ h.setRunner rfl rfl rfl rfl h.succeeded (fun _ _ hl => hl)
      ⟨[], hinv⟩ fun _ _ => howner run rfl
  | between run files =>
    rw [hr] at hinv howner
    obtain ⟨through, hrun⟩ := hinv
    -- the run is over with its last file
    cases files with
    | nil =>
      simp only [hr] at hst
      exact Option.some.inj hst ▸ h.goto hrun.succeeded fun _ _ => howner run rfl
    | cons file files =>
      simp only [hr] at hst
      exact Option.some.inj hst ▸ h.goto ⟨through, hrun⟩ fun _ _ => howner run rfl
  | checking run file files =>
    simp only [hr] at hst hinv howner
    obtain ⟨through, hrun⟩ := hinv
    split_ifs at hst with hc
    · have hskip := hrun.skip (List.contains_iff_mem.mp hc)
      exact Option.some.inj hst ▸ h.goto ⟨_, hskip⟩ fun _ _ => howner run rfl
    · have hnot : file.version ∉ s.recorded := fun hmem => hc (List.contains_iff_mem.mpr hmem)
      exact Option.some.inj hst ▸ h.goto ⟨⟨through, hrun⟩, hnot, rfl⟩ fun _ _ => howner run rfl
  | executing run file files copy sql =>
    rw [hr] at hinv howner
    obtain ⟨⟨through, hrun⟩, hnot, hsql⟩ := hinv
    -- after the last statement the version is inserted, which may be there
    cases sql with
    | nil =>
      simp only [hr] at hst
      split_ifs at hst
      · exact Option.some.inj hst ▸ h.goto hrun.failed fun _ _ => howner run rfl
      · exact Option.some.inj hst ▸ h.goto ⟨⟨through, hrun⟩, hnot, hsql, rfl⟩
          fun _ _ => howner run rfl
    | cons statement sql =>
      simp only [hr] at hst
      -- a statement that fails ends the run
      cases hstatement : statement copy with
      | none =>
        simp only [hstatement] at hst
        exact Option.some.inj hst ▸ h.goto hrun.failed fun _ _ => howner run rfl
      | some copy' =>
        simp only [hstatement] at hst
        rw [runSql, hstatement, Option.bind_some] at hsql
        exact Option.some.inj hst ▸ h.goto ⟨⟨through, hrun⟩, hnot, hsql⟩
          fun _ _ => howner run rfl
  | committing run file files copy versions =>
    simp only [hr] at hst
    exact Option.some.inj hst ▸ h.commit hr (fun through hrun => ⟨through, hrun⟩)
      fun _ _ => howner run (by rw [hr]; rfl)
  | closing run ok =>
    -- the lock is given up, and the result stands
    simp only [hr] at hst hinv
    have hresult : RunResult dir s.recorded run ok := hinv
    have hphase : PhaseInv dir s.recorded s.data (.done (some run) ok) := hresult
    exact Option.some.inj hst ▸ h.release rfl hphase ok fun hok => (hresult.complete hok).2
  | done run ok =>
    simp only [hr] at hst
    cases hst

/-- A failure. -/
theorem fail (h : MigrationInv dir first data₀ s) (hst : s.fail r = some t) :
    MigrationInv dir first data₀ t := by
  have hinv := h.phases r
  have howner := h.owner r
  unfold MigrationState.fail at hst
  split at hst
  case h_1 => cases hst
  case h_2 run ok hr =>
    rw [hr] at hinv
    have hresult : RunResult dir s.recorded run ok := hinv
    exact Option.some.inj hst ▸ h.goto
      ⟨hresult.executed, fun hok => absurd hok Bool.false_ne_true, hresult.rerun⟩
      (by simp [RunnerPhase.run])
  case h_3 =>
    split at hst
    case h_1 run hrun =>
      exact Option.some.inj hst ▸ h.goto (hinv.failed hrun) fun _ _ => howner run hrun
    case h_2 =>
      exact Option.some.inj hst ▸ h.goto rfl (by simp [RunnerPhase.run])

theorem commitUnacknowledged (h : MigrationInv dir first data₀ s)
    (hst : s.commitUnacknowledged r = some t) : MigrationInv dir first data₀ t := by
  unfold MigrationState.commitUnacknowledged at hst
  split at hst
  case h_1 run file files copy versions hr =>
    -- the file is recorded, although the run fails
    exact Option.some.inj hst ▸ h.commit hr (fun through hrun => hrun.failed)
      fun _ _ => h.owner r run (by rw [hr]; rfl)
  case h_2 => cases hst

/-- The end of a session. -/
theorem crash (h : MigrationInv dir first data₀ s) (hst : s.crash r = some t) :
    MigrationInv dir first data₀ t := by
  have hinv := h.phases r
  unfold MigrationState.crash at hst
  split at hst
  case h_1 => cases hst
  case h_2 run ok hr =>
    obtain ⟨files, hfiles⟩ := h.applied
    cases hst
    refine ⟨⟨files, hfiles.part, hfiles.committed, hfiles.recorded, hfiles.data⟩, ?_, h.phases,
      h.succeeded⟩
    intro r' run' hrun'
    have hwithin : (s.runners r').run = some run' := hrun'
    have hlock := h.owner r' run' hwithin
    show (if s.lock = some r then none else s.lock) = some r'
    rw [if_neg, hlock]
    -- a runner that is done is not within its run
    intro hown
    rw [hlock, Option.some.injEq] at hown
    rw [hown, hr] at hwithin
    cases hwithin
  case h_3 phase =>
    -- a session that ends within the run frees the lock
    have hphase : PhaseInv dir s.recorded s.data (.done (s.runners r).run false) := by
      cases hrun : (s.runners r).run with
      | none => rfl
      | some run => exact hinv.failed hrun
    have hrelease := h.release (r := r) rfl hphase false (fun hok => absurd hok Bool.false_ne_true)
    rw [Bool.or_false] at hrelease
    exact Option.some.inj hst ▸ hrelease

theorem step (h : MigrationInv dir first data₀ s) {a : MigrationAction}
    (hst : s.step dir a = some t) : MigrationInv dir first data₀ t := by
  cases a with
  | advance r => exact h.advance hst
  | fail r => exact h.fail hst
  | commitUnacknowledged r => exact h.commitUnacknowledged hst
  | crash r => exact h.crash hst

theorem initial (dir : MigrationsDirectory δ) (table : Option (List JsString)) (data₀ : δ) :
    MigrationInv dir (table.getD []) data₀ (.initial table data₀) where
  applied := ⟨[], List.nil_prefix, rfl, by simp [MigrationState.recorded, MigrationState.initial],
    rfl⟩
  owner r run h := by cases h
  phases r := trivial
  succeeded h := by cases h

end MigrationInv

/-! ## Every run -/

/-- **Migrations are applied once and in order.** For every directory, every table of versions and
database there are at first, and any number of runners whose operations may fail and whose sessions
may end: in every state reached no SQL has committed twice, the versions recorded are those at first
and those committed, the database is that after a first part of the pending files, and each run that
is over has executed a first part of what was pending when it took the lock, all of it if it
succeeded, and nothing after another success. -/
theorem migrates_in_order (dir : MigrationsDirectory δ) (table : Option (List JsString))
    (data₀ : δ) {s : MigrationState δ}
    (h : (migrationSystem dir table data₀).Reachable Guard.all s) :
    MigratesInOrder dir (table.getD []) data₀ s := by
  have hinv : MigrationInv dir (table.getD []) data₀ s := by
    apply h.invariant
    · rintro _ rfl
      exact .initial dir table data₀
    · intro s a t hs _ hst
      exact hs.step hst
  obtain ⟨files, hfiles⟩ := hinv.applied
  refine ⟨?_, ?_, ⟨files, hfiles, ?_⟩, ?_, ?_⟩
  · rw [hfiles.committed]
    have hpending : ((pending dir (table.getD [])).map MigrationFile.version).Nodup :=
      (nodup_versions dir).sublist (List.filter_sublist.map _)
    exact hpending.sublist (hfiles.part.sublist.map _)
  · intro version
    rw [hfiles.recorded, hfiles.committed, List.mem_append]
  · exact (pairwise_sortedFiles dir).sublist (hfiles.part.sublist.trans List.filter_sublist)
  · intro r run ok hr
    have hphase := hinv.phases r
    rw [hr] at hphase
    exact hphase
  · intro r hr
    have hphase := hinv.phases r
    rw [hr] at hphase
    cases hphase

/-- Two migrations, the later one first in the directory, and a file that is none. -/
def sampleDirectory : MigrationsDirectory Nat where
  entries := [⟨js "002_chat.sql", [fun n => some (n * 2)]⟩, ⟨js "README.md", []⟩,
    ⟨js "001_users.sql", [fun n => some (n + 10)]⟩]
  names := by decide

/-- A runner that loses its session within the second file, and one that goes on from there. -/
def sampleRun : List MigrationAction :=
  List.replicate 10 (.advance 0) ++ [.advance 1, .crash 0] ++ List.replicate 11 (.advance 1)

theorem migrates_in_order_run :
    ∃ s, (migrationSystem sampleDirectory none 1).runFrom (.initial none 1) sampleRun = some s ∧
      (s.committed = [js "001_users", js "002_chat"] ∧ s.data = 22 ∧ s.succeeded = true) ∧
      MigratesInOrder sampleDirectory [] 1 s := by
  obtain ⟨s, hrun, hs⟩ := TransitionSystem.exists_of_any
    (o := (migrationSystem sampleDirectory none 1).runFrom (.initial none 1) sampleRun)
    (fun s => s.committed = [js "001_users", js "002_chat"] ∧ s.data = 22 ∧ s.succeeded = true)
    (by decide)
  have hreach := TransitionSystem.Reachable.of_runFrom (.init rfl) hrun
  exact ⟨s, hrun, hs, migrates_in_order sampleDirectory none 1 hreach⟩

end MernChat
