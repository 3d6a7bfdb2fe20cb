import Lemmata.Verification
import Lemmata.Proofs.Building
import Lemmata.Proofs.WorkerPool

/-!
What a run without a failure has checked. A run takes one database file after the other, each on a pool
of workers, and may be interrupted at any step. If no report is a failure, each tells of a file that was
loaded and has a passing verdict for each of its theorems. Files are left over only if the interruption
came between the last look of a batch and the look behind it: then no report tells so.
-/

set_option autoImplicit false

namespace Lemmata

structure DatabaseFile where
  path : String
  engine : Except String Engine
  verify : String → Except String Result
  explained : ∀ error, engine = .error error → error ≠ ""

section Loading

variable {σ : Type} (s : Session (StateM σ)) (config : Config) (world : σ)

theorem load_table_explained (path error : String) (failed : (s.loadTable path world).1 = .error error) :
    error ≠ "" := by
  rw [Session.loadTable, state_bind] at failed
  cases read : (s.host.read path world).1 with
  | error cause =>
      rw [read] at failed
      cases failed
      simp
  | ok text =>
      cases parsed : Table.ofText text with
      | error cause =>
          simp only [read, parsed] at failed
          cases failed
          simp
      | ok table =>
          simp only [read, parsed] at failed
          cases failed

theorem open_engine_explained (path error : String) (failed : (s.openEngine config path world).1 = .error error) :
    error ≠ "" := by
  rw [Session.openEngine, state_bind] at failed
  cases loaded : (s.loadTable path world).1 with
  | error cause =>
      rw [loaded] at failed
      cases failed
      exact load_table_explained s world path error loaded
  | ok table =>
      rw [loaded] at failed
      cases failed

-- Whatever a session opens is such a file.
def Session.databaseFile (verify : String → Except String Result) (path : String) : DatabaseFile where
  path
  engine := (s.openEngine config path world).1
  verify
  explained := open_engine_explained s config world path

end Loading

inductive SweepStage where
  | loading
  | pooling (file : DatabaseFile) (pool : Pool)
  | looking
  | ended

def SweepStage.isEnded : SweepStage → Bool
  | ended => true
  | loading | pooling _ _ | looking => false

def SweepStage.current : SweepStage → List DatabaseFile
  | pooling file _ => [file]
  | loading | looking | ended => []

structure Sweep where
  reports : List DatabaseReport := []
  left : List DatabaseFile
  interrupted : Bool := false
  stage : SweepStage := .loading

namespace Sweep

def load (sweep : Sweep) : Sweep :=
  match sweep.left with
  | [] => { sweep with stage := .ended }
  | file :: left =>
      match file.engine with
      | .error error =>
          { sweep with reports := sweep.reports ++ [.ofLoadError file.path error], left, stage := .looking }
      | .ok engine =>
          { sweep with left, stage := .pooling file { pending := engine.theorems, interrupted := sweep.interrupted } }

def settle (sweep : Sweep) (file : DatabaseFile) (pool : Pool) : Sweep :=
  match pool.phase with
  | .returned batch =>
      { sweep with
        reports := sweep.reports ++ [.ofBatch file.path batch], interrupted := pool.interrupted, stage := .looking }
  | _ => { sweep with interrupted := pool.interrupted, stage := .pooling file pool }

def look (sweep : Sweep) : Sweep := { sweep with stage := if sweep.interrupted then .ended else .loading }

theorem load_unloaded (sweep : Sweep) (file : DatabaseFile) (left : List DatabaseFile) (error : String)
    (split : sweep.left = file :: left) (failed : file.engine = .error error) :
    sweep.load = { sweep with
      reports := sweep.reports ++ [.ofLoadError file.path error], left, stage := .looking } := by
  simp only [load, split, failed]

theorem load_loaded (sweep : Sweep) (file : DatabaseFile) (left : List DatabaseFile) (engine : Engine)
    (split : sweep.left = file :: left) (loaded : file.engine = .ok engine) :
    sweep.load = { sweep with
      left, stage := .pooling file { pending := engine.theorems, interrupted := sweep.interrupted } } := by
  simp only [load, split, loaded]

variable (limit : Nat) (reason : String)

def step (sweep : Sweep) (event : Event) : Option Sweep :=
  match sweep.stage, event with
  | .ended, _ => none
  | .pooling file pool, event => (pool.step file.verify limit reason event).map (sweep.settle file)
  | _, .interrupt => if sweep.interrupted then none else some { sweep with interrupted := true }
  | .loading, .advance => some sweep.load
  | .looking, .advance => some sweep.look
  | _, .work _ _ => none

def run (sweep : Sweep) : List Event → Option Sweep
  | [] => some sweep
  | event :: rest => (sweep.step limit reason event).bind fun next => next.run rest

end Sweep

def Severity.Passes (verdict : Severity) : Prop :=
  verdict = .ok ∨ verdict = .incomplete ∨ ∃ rank < 2, verdict = .unknown rank

def DatabaseFile.Checked (file : DatabaseFile) (report : DatabaseReport) : Prop :=
  report.summary.database = file.path ∧ ∃ engine results,
    file.engine = .ok engine ∧ report.results = some results ∧
      List.Forall₂ (fun label result => file.verify label = .ok result ∧ result.verdict.Passes)
        engine.theorems results

-- The number of steps that a file can take: those of its batch, one to load it and one to look behind it.
def DatabaseFile.work (file : DatabaseFile) : Nat :=
  match file.engine with
  | .ok engine => 4 * engine.theorems.length + 4
  | .error _ => 2

def workload (files : List DatabaseFile) : Nat := files.foldr (fun file total => file.work + total) 0

theorem workload_cons (file : DatabaseFile) (files : List DatabaseFile) :
    workload (file :: files) = file.work + workload files := rfl

theorem passes_iff (verdict : Severity) : verdict.Passes ↔ verdict.isFailure = false := by
  cases verdict with
  | unknown rank =>
      have failing : (Severity.unknown rank).isFailure = true ↔ 2 ≤ rank := decide_eq_true_iff
      simp [Severity.Passes, ← Bool.not_eq_true, failing]
  | _ => simp [Severity.Passes, Severity.isFailure, Severity.rank]

section Reports

variable {reason : String} {file : DatabaseFile} {report : DatabaseReport}

inductive DatabaseFile.Reported (reason : String) (file : DatabaseFile) : DatabaseReport → Prop where
  | unloaded (error : String) (failed : file.engine = .error error) :
      Reported reason file (.ofLoadError file.path error)
  | batch (engine : Engine) (events : List Event) (batch : Batch) (loaded : file.engine = .ok engine)
      (reports : batch.Reports file.verify reason engine.theorems events) :
      Reported reason file (.ofBatch file.path batch)

theorem of_batch_fine (path : String) (batch : Batch) :
    (DatabaseReport.ofBatch path batch).failed = false ↔
      batch.failureText.getD "" = "" ∧ ∀ result ∈ batch.results, result.verdict.isFailure = false := by
  simp [DatabaseReport.failed, DatabaseReport.ofBatch, Summary.failed, Summary.ofResults]

theorem any_failed_iff (reports : List DatabaseReport) :
    anyFailed reports = false ↔ ∀ report ∈ reports, report.failed = false := by
  simp [anyFailed]

theorem load_error_failed (path error : String) (explained : error ≠ "") :
    (DatabaseReport.ofLoadError path error).failed = true := by
  simp [DatabaseReport.failed, DatabaseReport.ofLoadError, explained]

theorem result_for_passes (verify : String → Except String Result) (label : String)
    (fine : (resultFor verify label).verdict.isFailure = false) :
    verify label = .ok (resultFor verify label) := by
  unfold resultFor at fine ⊢
  cases verified : verify label with
  | ok result => rfl
  | error message =>
      rw [verified] at fine
      cases fine

section Fine

variable {verify : String → Except String Result} {labels : List String} {events : List Event} {batch : Batch}

theorem Batch.Reports.passing (reports : batch.Reports verify reason labels events) (path : String)
    (fine : (DatabaseReport.ofBatch path batch).failed = false) :
    ∀ label ∈ attempted labels events, (resultFor verify label).verdict.isFailure = false := by
  intro label member
  apply ((of_batch_fine path batch).mp fine).2
  rw [reports.results]
  exact List.mem_map_of_mem member

-- An interruption shows as a failure of the batch, since it has a reason.
theorem Batch.Reports.undisturbed (reports : batch.Reports verify reason labels events) (caused : reason ≠ "")
    (path : String) (fine : (DatabaseReport.ofBatch path batch).failed = false) : .interrupt ∉ events := by
  intro disturbed
  have failing : batch.failureText ≠ none := fun none => (reports.clean.mp none).2 disturbed
  have unfailing : (attempted labels events).filterMap (failureFor verify) = [] := by
    apply List.filterMap_eq_nil_iff.mpr
    intro label member
    exact (failure_for_none label).mpr ⟨_, result_for_passes verify label (reports.passing path fine label member)⟩
  have silent := ((of_batch_fine path batch).mp fine).1
  rw [reports.joined failing, unfailing, if_pos disturbed] at silent
  exact caused silent

theorem Batch.Reports.checked (reports : batch.Reports verify reason labels events) (caused : reason ≠ "")
    (path : String) (fine : (DatabaseReport.ofBatch path batch).failed = false) :
    List.Forall₂ (fun label result => verify label = .ok result ∧ result.verdict.Passes) labels
      batch.results := by
  have whole := reports.complete (reports.undisturbed caused path fine)
  have passing := reports.passing path fine
  rw [whole] at passing
  rw [reports.results, whole, List.forall₂_map_right_iff, List.forall₂_same]
  intro label member
  exact ⟨result_for_passes verify label (passing label member), (passes_iff _).mpr (passing label member)⟩

end Fine

theorem DatabaseFile.Reported.checked (caused : reason ≠ "") (reported : file.Reported reason report)
    (fine : report.failed = false) : file.Checked report := by
  cases reported with
  | unloaded error failed =>
      rw [load_error_failed file.path error (file.explained error failed)] at fine
      cases fine
  | batch engine events batch loaded reports =>
      exact ⟨rfl, engine, batch.results, loaded, rfl, reports.checked caused file.path fine⟩

theorem reported_checked {files : List DatabaseFile} {reports : List DatabaseReport} (caused : reason ≠ "")
    (told : List.Forall₂ (DatabaseFile.Reported reason) files reports) (clean : anyFailed reports = false) :
    List.Forall₂ DatabaseFile.Checked files reports := by
  induction told with
  | nil => exact .nil
  | cons first _ ih =>
      obtain ⟨fine, rest⟩ := Bool.or_eq_false_iff.mp clean
      exact .cons (first.checked caused fine) (ih rest)

end Reports

section Steps

variable {limit : Nat} {reason : String} {sweep next : Sweep}

inductive Sweep.Transition (limit : Nat) (reason : String) (sweep : Sweep) : Event → Sweep → Prop where
  | interrupt (outside : sweep.stage = .loading ∨ sweep.stage = .looking) (undisturbed : sweep.interrupted = false) :
      Transition limit reason sweep .interrupt { sweep with interrupted := true }
  | load (loading : sweep.stage = .loading) : Transition limit reason sweep .advance sweep.load
  | look (looking : sweep.stage = .looking) : Transition limit reason sweep .advance sweep.look
  | pool (event : Event) (file : DatabaseFile) (pool later : Pool) (pooling : sweep.stage = .pooling file pool)
      (transition : pool.Transition file.verify limit reason event later) :
      Transition limit reason sweep event (sweep.settle file later)

theorem Sweep.step_cases (event : Event) (stepped : sweep.step limit reason event = some next) :
    sweep.Transition limit reason event next := by
  obtain ⟨reports, left, interrupted, stage⟩ := sweep
  cases stage with
  | loading =>
      cases event with
      | interrupt =>
          simp only [step, Option.ite_none_left_eq_some, Option.some.injEq, Bool.not_eq_true] at stepped
          obtain ⟨undisturbed, rfl⟩ := stepped
          exact .interrupt (Or.inl rfl) undisturbed
      | advance =>
          cases stepped
          exact .load rfl
      | work position action => cases stepped
  | pooling file pool =>
      simp only [step, Option.map_eq_some_iff] at stepped
      obtain ⟨later, moved, rfl⟩ := stepped
      exact .pool event file pool later rfl (Pool.step_cases event moved)
  | looking =>
      cases event with
      | interrupt =>
          simp only [step, Option.ite_none_left_eq_some, Option.some.injEq, Bool.not_eq_true] at stepped
          obtain ⟨undisturbed, rfl⟩ := stepped
          exact .interrupt (Or.inr rfl) undisturbed
      | advance =>
          cases stepped
          exact .look rfl
      | work position action => cases stepped
  | ended => cases stepped

namespace Sweep

def rank (sweep : Sweep) : Nat :=
  workload sweep.left + match sweep.stage with
    | .loading => (if sweep.interrupted then 0 else 1) + 1
    | .pooling _ pool => pool.rank + 2
    | .looking => (if sweep.interrupted then 0 else 1) + 2
    | .ended => 0

theorem settle_rank (sweep : Sweep) (file : DatabaseFile) (pool : Pool) :
    (sweep.settle file pool).rank ≤ workload sweep.left + pool.rank + 2 := by
  unfold settle rank
  cases phase : pool.phase with
  | returned batch =>
      simp only [Pool.rank]
      omega
  | _ => exact Nat.le_refl _

theorem transition_rank (event : Event) (transition : sweep.Transition limit reason event next) :
    next.rank < sweep.rank := by
  cases transition with
  | interrupt outside undisturbed =>
      obtain ⟨reports, left, interrupted, stage⟩ := sweep
      cases undisturbed
      rcases outside with rfl | rfl <;> simp [rank]
  | load loading =>
      obtain ⟨reports, left, interrupted, stage⟩ := sweep
      cases loading
      cases left with
      | nil => simp [load, rank]
      | cons file left =>
          cases loaded : file.engine with
          | error error =>
              rw [load_unloaded _ file left error rfl loaded]
              simp only [rank, workload_cons, DatabaseFile.work, loaded]
              omega
          | ok engine =>
              rw [load_loaded _ file left engine rfl loaded]
              simp only [rank, workload_cons, DatabaseFile.work, loaded, Pool.rank, Pool.load,
                List.foldr_nil, Phase.rank]
              omega
  | look looking =>
      obtain ⟨reports, left, interrupted, stage⟩ := sweep
      cases looking
      cases interrupted <;> simp [look, rank]
  | pool event file pool later pooling transition =>
      have less := Pool.transition_rank event transition
      have bounded := settle_rank sweep file later
      have whole : sweep.rank = workload sweep.left + (pool.rank + 2) := by
        simp only [rank, pooling]
      omega

end Sweep

end Steps

section Outcome

variable {limit : Nat} {reason : String} {files : List DatabaseFile} {past : List Event} {sweep next : Sweep}

namespace Sweep

def Consistent (reason : String) (past : List Event) (sweep : Sweep) : Prop :=
  match sweep.stage with
  | .loading => True
  | .pooling file pool =>
      pool.phase.isReturned = false ∧ ∃ engine events, file.engine = .ok engine ∧
        pool.Follows file.verify reason engine.theorems events
  | .looking =>
      anyFailed sweep.reports = false → sweep.interrupted = true → ∃ before, past = before ++ [.interrupt]
  | .ended =>
      anyFailed sweep.reports = false → sweep.left = [] ∨ ∃ before, past = before ++ [.interrupt, .advance]

def Told (reason : String) (files : List DatabaseFile) (sweep : Sweep) : Prop :=
  ∃ seen, files = seen ++ (sweep.stage.current ++ sweep.left) ∧
    List.Forall₂ (DatabaseFile.Reported reason) seen sweep.reports

structure Follows (reason : String) (files : List DatabaseFile) (past : List Event) (sweep : Sweep) : Prop where
  told : sweep.Told reason files
  stage : sweep.Consistent reason past
  bounded : past.length + sweep.rank ≤ workload files + 2

theorem told_more {seen : List DatabaseFile} {reports : List DatabaseReport} {file : DatabaseFile}
    {left : List DatabaseFile} {report : DatabaseReport}
    (split : files = seen ++ (file :: left)) (told : List.Forall₂ (DatabaseFile.Reported reason) seen reports)
    (reported : file.Reported reason report) :
    ∃ seen, files = seen ++ left ∧ List.Forall₂ (DatabaseFile.Reported reason) seen (reports ++ [report]) :=
  ⟨seen ++ [file], by rw [split, List.append_assoc]; rfl, List.rel_append told (.cons reported .nil)⟩

theorem start_follows (files : List DatabaseFile) : Follows reason files [] { left := files } :=
  ⟨⟨[], rfl, .nil⟩, trivial, Nat.le_of_eq (by simp [rank])⟩

theorem Follows.load (follows : sweep.Follows reason files past) (loading : sweep.stage = .loading) :
    sweep.load.Told reason files ∧ sweep.load.Consistent reason (past ++ [.advance]) := by
  obtain ⟨reports, left, interrupted, stage⟩ := sweep
  cases loading
  obtain ⟨seen, split, told⟩ := follows.told
  cases left with
  | nil => exact ⟨⟨seen, split, told⟩, fun _ => Or.inl rfl⟩
  | cons file left =>
      cases loaded : file.engine with
      | error error =>
          rw [load_unloaded _ file left error rfl loaded]
          refine ⟨told_more split told (.unloaded error loaded), fun clean => ?_⟩
          have fine := (any_failed_iff _).mp clean (.ofLoadError file.path error) (by simp)
          rw [load_error_failed file.path error (file.explained error loaded)] at fine
          cases fine
      | ok engine =>
          rw [load_loaded _ file left engine rfl loaded]
          exact ⟨⟨seen, split, told⟩, rfl, engine, _, loaded, Pool.opened_follows engine.theorems interrupted⟩

theorem Follows.look (follows : sweep.Follows reason files past) (looking : sweep.stage = .looking) :
    sweep.look.Told reason files ∧ sweep.look.Consistent reason (past ++ [.advance]) := by
  obtain ⟨reports, left, interrupted, stage⟩ := sweep
  cases looking
  obtain ⟨told, disturbed, -⟩ := follows
  cases interrupted with
  | false => exact ⟨told, trivial⟩
  | true =>
      refine ⟨told, fun clean => Or.inr ?_⟩
      obtain ⟨before, rfl⟩ := disturbed clean rfl
      exact ⟨before, by simp⟩

theorem Follows.settle {file : DatabaseFile} {pool : Pool} (follows : sweep.Follows reason files past)
    (caused : reason ≠ "") (pooling : sweep.stage = .pooling file pool) (event : Event) (later : Pool)
    (transition : pool.Transition file.verify limit reason event later) :
    (sweep.settle file later).Told reason files ∧
      (sweep.settle file later).Consistent reason (past ++ [event]) := by
  obtain ⟨reports, left, interrupted, stage⟩ := sweep
  cases pooling
  obtain ⟨seen, split, told⟩ := follows.told
  obtain ⟨unreturned, engine, events, loaded, traced⟩ := follows.stage
  have continued := traced.transition event transition
  cases phase : later.phase with
  | returned batch =>
      have reported := continued.reports batch phase
      simp only [Sweep.settle, phase, Told, Consistent]
      refine ⟨told_more split told (.batch engine _ batch loaded reported), fun clean disturbed => ?_⟩
      have fine := (any_failed_iff _).mp clean (.ofBatch file.path batch) (by simp)
      exact absurd (continued.interrupted.mp disturbed) (reported.undisturbed caused file.path fine)
  | _ =>
      simp only [Sweep.settle, phase, Told, Consistent]
      exact ⟨⟨seen, split, told⟩, rfl, engine, _, loaded, continued⟩

theorem Follows.interrupt (follows : sweep.Follows reason files past)
    (outside : sweep.stage = .loading ∨ sweep.stage = .looking) :
    Consistent reason (past ++ [.interrupt]) { sweep with interrupted := true } := by
  obtain ⟨reports, left, interrupted, stage⟩ := sweep
  rcases outside with rfl | rfl
  · trivial
  · exact fun _ _ => ⟨past, rfl⟩

theorem Follows.transition (caused : reason ≠ "") (follows : sweep.Follows reason files past) (event : Event)
    (transition : sweep.Transition limit reason event next) :
    next.Follows reason files (past ++ [event]) := by
  have bounded : (past ++ [event]).length + next.rank ≤ workload files + 2 := by
    have less := transition_rank event transition
    have before := follows.bounded
    rw [List.length_append, List.length_singleton]
    omega
  cases transition with
  | interrupt outside undisturbed => exact ⟨follows.told, follows.interrupt outside, bounded⟩
  | load loading =>
      obtain ⟨told, stage⟩ := follows.load loading
      exact ⟨told, stage, bounded⟩
  | look looking =>
      obtain ⟨told, stage⟩ := follows.look looking
      exact ⟨told, stage, bounded⟩
  | pool event file pool later pooling transition =>
      obtain ⟨told, stage⟩ := follows.settle caused pooling event later transition
      exact ⟨told, stage, bounded⟩

theorem run_follows (caused : reason ≠ "") (events : List Event) (follows : sweep.Follows reason files past)
    (reached : sweep.run limit reason events = some next) : next.Follows reason files (past ++ events) := by
  induction events generalizing sweep past with
  | nil =>
      cases reached
      rwa [List.append_nil]
  | cons event rest ih =>
      obtain ⟨middle, stepped, continued⟩ := Option.bind_eq_some_iff.mp reached
      have later := ih (follows.transition caused event (step_cases event stepped)) continued
      rwa [List.append_assoc] at later

theorem step_some (follows : sweep.Follows reason files past) (room : 0 < limit)
    (unended : sweep.stage.isEnded = false) :
    ∃ event, event ≠ .interrupt ∧ (sweep.step limit reason event).isSome = true := by
  obtain ⟨reports, left, interrupted, stage⟩ := sweep
  cases stage with
  | loading => exact ⟨.advance, by simp, rfl⟩
  | looking => exact ⟨.advance, by simp, rfl⟩
  | pooling file pool =>
      obtain ⟨unreturned, engine, events, -, traced⟩ := follows.stage
      obtain ⟨event, own, moved⟩ := Pool.step_some traced room unreturned
      exact ⟨event, own, by simpa [step] using moved⟩
  | ended => cases unended

end Sweep

end Outcome

section Sequential

variable {limit : Nat} {reason : String}

def Sweep.Ends (limit : Nat) (reason : String) (sweep : Sweep) (reports : List DatabaseReport) : Prop :=
  ∃ events final, sweep.run limit reason events = some final ∧ final.stage = .ended ∧ final.reports = reports

theorem Sweep.Ends.after {sweep next : Sweep} {reports : List DatabaseReport} (event : Event)
    (ends : next.Ends limit reason reports) (stepped : sweep.step limit reason event = some next) :
    sweep.Ends limit reason reports := by
  obtain ⟨events, final, reached, ended⟩ := ends
  refine ⟨event :: events, final, ?_, ended⟩
  rw [Sweep.run, stepped]
  exact reached

theorem Sweep.settle_unreturned (sweep : Sweep) (file : DatabaseFile) (pool : Pool)
    (unreturned : pool.phase.isReturned = false) :
    sweep.settle file pool = { sweep with interrupted := pool.interrupted, stage := .pooling file pool } := by
  unfold settle
  cases phase : pool.phase with
  | returned batch => simp [phase, Phase.isReturned] at unreturned
  | _ => rfl

theorem Sweep.settle_ends (sweep : Sweep) (file : DatabaseFile) (pool final : Pool) (events : List Event)
    (reached : pool.run file.verify limit reason events = some final) (reports : List DatabaseReport)
    (ends : (sweep.settle file final).Ends limit reason reports) :
    (sweep.settle file pool).Ends limit reason reports := by
  induction events generalizing pool with
  | nil =>
      cases reached
      exact ends
  | cons event rest ih =>
      obtain ⟨next, stepped, continued⟩ := Option.bind_eq_some_iff.mp reached
      have unreturned : pool.phase.isReturned = false := by
        by_contra returned
        simp [Pool.step, returned] at stepped
      refine (ih next continued).after event ?_
      rw [sweep.settle_unreturned file pool unreturned]
      simp only [Sweep.step, stepped, Option.map_some]
      rfl

theorem Sweep.ends_pooled (sweep : Sweep) (loading : sweep.stage = .loading) (file : DatabaseFile)
    (left : List DatabaseFile) (engine : Engine) (split : sweep.left = file :: left)
    (loaded : file.engine = .ok engine) (batch : Batch)
    (returns : Pool.Returns file.verify limit reason
      { pending := engine.theorems, interrupted := sweep.interrupted } batch)
    (reports : List DatabaseReport)
    (ends : ∀ interrupted, (interrupted = true → batch.interruption ≠ none) →
      Sweep.Ends limit reason
        { reports := sweep.reports ++ [.ofBatch file.path batch], left, interrupted, stage := .looking } reports) :
    sweep.Ends limit reason reports := by
  obtain ⟨events, final, reached, returned⟩ := returns
  have traced := Pool.run_follows engine.theorems sweep.interrupted events reached
  have settled : Sweep.Ends limit reason ({ sweep with left }.settle file final) reports := by
    simp only [settle, returned]
    exact ends final.interrupted fun disturbed => by
      simp [traced.interruption batch returned, Pool.interruption, disturbed]
  have pooled := settle_ends { sweep with left } file _ final events reached reports settled
  refine pooled.after .advance ?_
  simp only [step, loading]
  exact congrArg some (load_loaded sweep file left engine split loaded)

def behindLook (others : Nat → List DatabaseReport) : Nat → List DatabaseReport
  | 0 => []
  | later + 1 => others later

theorem Sweep.ends_looked (reports : List DatabaseReport) (left : List DatabaseFile)
    (others : Nat → List DatabaseReport) (interrupted : Bool) (looks : Nat) (lasting : interrupted = true → looks = 0)
    (continued : ∀ later, Sweep.Ends limit reason { reports, left } (reports ++ others later)) :
    Sweep.Ends limit reason { reports, left, interrupted, stage := .looking }
      (reports ++ behindLook others looks) := by
  cases looks with
  | zero =>
      rw [behindLook, List.append_nil]
      cases interrupted with
      | true => exact ⟨[.advance], _, rfl, rfl, rfl⟩
      | false => exact ⟨[.interrupt, .advance], _, rfl, rfl, rfl⟩
  | succ later =>
      obtain rfl : interrupted = false := by simpa using lasting
      exact (continued later).after .advance rfl

variable {load : String → Except String Engine} {verify : Engine → String → Except String Result}

def Verifying.ofOutcomes (reason : String) (load : String → Except String Engine)
    (verify : Engine → String → Except String Result) : Verifying (StateM Nat) where
  interrupted := countdown reason
  openEngine path := pure (load path)
  verify engine label := pure (verify engine label)
  notify _ := pure ()

def DatabaseFile.ofOutcomes (load : String → Except String Engine)
    (verify : Engine → String → Except String Result)
    (explained : ∀ path error, load path = .error error → error ≠ "") (path : String) : DatabaseFile where
  path
  engine := load path
  verify label := (load path).bind fun engine => verify engine label
  explained := explained path

theorem run_database_loaded (path : String) (engine : Engine) (loaded : load path = .ok engine) (looks : Nat) :
    (Verifying.ofOutcomes reason load verify).runDatabase path looks =
      (.ofBatch path (Batch.process (countdown reason) (fun label => pure (verify engine label)) engine.theorems
          looks).1,
        (Batch.process (countdown reason) (fun label => pure (verify engine label)) engine.theorems looks).2) := by
  rw [Verifying.runDatabase, state_bind]
  simp only [Verifying.ofOutcomes, loaded]
  change StateT.bind (Batch.process _ _ _) _ looks = _
  change (if _ then _ else _ : StateM Nat DatabaseReport) _ = _
  split
  · rfl
  · split <;> rfl

theorem run_database_unloaded (path error : String) (failed : load path = .error error) (looks : Nat) :
    (Verifying.ofOutcomes reason load verify).runDatabase path looks = (.ofLoadError path error, looks) := by
  rw [Verifying.runDatabase, state_bind]
  simp only [Verifying.ofOutcomes, failed]
  rfl

theorem run_all_cons (path : String) (rest : List String) (looks : Nat) :
    ((Verifying.ofOutcomes reason load verify).runAll (path :: rest) looks).1 =
      ((Verifying.ofOutcomes reason load verify).runDatabase path looks).1 ::
        behindLook (fun later => ((Verifying.ofOutcomes reason load verify).runAll rest later).1)
          ((Verifying.ofOutcomes reason load verify).runDatabase path looks).2 := by
  rw [Verifying.runAll, state_bind]
  generalize (Verifying.ofOutcomes reason load verify).runDatabase path looks = outcome
  obtain ⟨report, looks⟩ := outcome
  cases looks <;> rfl

-- A sequential run is one of the schedules of the sweep.
theorem run_all_scheduled (workers : Int) (processors : Nat) (equipped : 0 < processors)
    (explained : ∀ path error, load path = .error error → error ≠ "") (paths : List String)
    (reports : List DatabaseReport) (interrupted : Bool) (looks : Nat) (lasting : interrupted = true → looks = 0) :
    Sweep.Ends (poolSize workers processors) reason
      { reports, left := paths.map (.ofOutcomes load verify explained), interrupted }
      (reports ++ ((Verifying.ofOutcomes reason load verify).runAll paths looks).1) := by
  induction paths generalizing reports interrupted looks with
  | nil => exact ⟨[.advance], _, rfl, rfl, (List.append_nil reports).symm⟩
  | cons path rest ih =>
      rw [run_all_cons, List.append_cons]
      have looked (report : DatabaseReport) (interrupted : Bool) (looks : Nat)
          (lasting : interrupted = true → looks = 0) := Sweep.ends_looked _ _ _ interrupted looks lasting
        fun later => ih (reports ++ [report]) false later (by simp)
      cases loaded : load path with
      | error error =>
          rw [run_database_unloaded path error loaded]
          exact (looked (.ofLoadError path error) interrupted looks lasting).after .advance
            (congrArg some (Sweep.load_unloaded _ (.ofOutcomes load verify explained path) _ error rfl loaded))
      | ok engine =>
          rw [run_database_loaded path engine loaded]
          have same : (DatabaseFile.ofOutcomes load verify explained path).verify = verify engine := by
            simp only [DatabaseFile.ofOutcomes, loaded]
            rfl
          have returns := process_scheduled (verify engine) reason workers processors equipped
            engine.theorems interrupted looks lasting
          rw [← same] at returns
          refine Sweep.ends_pooled _ rfl (.ofOutcomes load verify explained path) _ engine rfl loaded _ returns _ ?_
          rw [same]
          intro disturbed stopped
          exact looked _ disturbed _ fun set => process_interrupted engine.theorems looks (stopped set)

end Sequential

theorem clean_run_checked (workers : Int) (processors : Nat) (equipped : 0 < processors) (reason : String)
    (caused : reason ≠ "") (files : List DatabaseFile) (events : List Event) (sweep : Sweep)
    (reached : Sweep.run (poolSize workers processors) reason { left := files } events = some sweep) :
    events.length ≤ workload files + 2 ∧
      (sweep.stage.isEnded = false → ∃ event, event ≠ .interrupt ∧
        (sweep.step (poolSize workers processors) reason event).isSome = true) ∧
      (sweep.stage.isEnded = true → anyFailed sweep.reports = false →
        ∃ checked, files = checked ++ sweep.left ∧ List.Forall₂ DatabaseFile.Checked checked sweep.reports ∧
          (sweep.left = [] ∨ ∃ before, events = before ++ [.interrupt, .advance])) := by
  have follows := Sweep.run_follows caused events (Sweep.start_follows files) reached
  refine ⟨?_, Sweep.step_some follows (pool_size_pos workers processors equipped), fun ended clean => ?_⟩
  · have bounded := follows.bounded
    rw [List.nil_append] at bounded
    omega
  · obtain ⟨reports, left, interrupted, stage⟩ := sweep
    cases stage with
    | ended =>
        obtain ⟨seen, split, told⟩ := follows.told
        exact ⟨seen, split, reported_checked caused told clean, follows.stage clean⟩
    | _ => cases ended

def sampleLoad (path : String) : Except String Engine :=
  if path = "missing" then .error "no such file" else .ok (Engine.ofTable sampleTable)

def sampleVerify (engine : Engine) (label : String) : Except String Result :=
  (engine.run 0 label {}).1.mapError EngineError.message

def sampleFile : String → DatabaseFile :=
  .ofOutcomes sampleLoad sampleVerify fun path error failed => by
    unfold sampleLoad at failed
    split at failed
    · cases failed
      decide
    · cases failed

def sampleTurn : List Event :=
  [.advance, .advance, .advance, .advance, .advance, .work 1 .call, .work 0 .call, .work 1 .finish, .advance,
    .work 0 .finish, .advance]

def sampleSweep : List Event := sampleTurn ++ [.advance] ++ sampleTurn ++ [.advance, .advance]

def sampleFiles : List DatabaseFile := ["first", "second"].map sampleFile

theorem clean_run_checked_sample :
    ∃ sweep, Sweep.run (poolSize 2 1) "context deadline exceeded" { left := sampleFiles } sampleSweep = some sweep ∧
      sweep.stage.isEnded = true ∧ anyFailed sweep.reports = false ∧
      ∃ checked, sampleFiles = checked ++ sweep.left ∧
        List.Forall₂ DatabaseFile.Checked checked sweep.reports ∧
        (sweep.left = [] ∨ ∃ before, sampleSweep = before ++ [.interrupt, .advance]) := by
  refine ⟨_, rfl, rfl, by decide +kernel, ?_⟩
  exact (clean_run_checked 2 1 (by decide) "context deadline exceeded" (by decide) sampleFiles sampleSweep _
    rfl).2.2 rfl (by decide +kernel)

-- The interruption comes between two files. The second one is missing, and no report tells so.
theorem clean_run_unfinished :
    (∃ sweep, Sweep.run (poolSize 2 1) "context deadline exceeded" { left := ["first", "missing"].map sampleFile }
        (sampleTurn ++ [.interrupt, .advance]) = some sweep ∧
      sweep.stage.isEnded = true ∧ anyFailed sweep.reports = false ∧ sweep.reports.length = 1) ∧
    anyFailed ((Verifying.ofOutcomes "context deadline exceeded" sampleLoad sampleVerify).runAll
      ["first", "missing"] 5).1 = false ∧
    ((Verifying.ofOutcomes "context deadline exceeded" sampleLoad sampleVerify).runAll
      ["first", "missing"] 5).1.length = 1 :=
  ⟨⟨_, rfl, rfl, by decide +kernel, rfl⟩, by decide +kernel, by decide +kernel⟩

end Lemmata
