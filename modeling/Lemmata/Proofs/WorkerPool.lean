import Lemmata.Batch

/-!
The theorems of a batch on a pool of workers. A schedule is the order in which the dispatcher and the
workers take their steps and the batch is interrupted. Whatever the schedule is, it ends, and the batch
that it returns tells the same of every theorem that was attempted.
-/

set_option autoImplicit false

namespace Lemmata

-- What a worker has come to with its theorem. A queued one has not yet looked for an interruption.
inductive Place where
  | queued
  | running
  | skipped
  | finished (outcome : Except String Result)

inductive Action where
  | call
  | skip
  | finish
deriving DecidableEq

inductive Event where
  | interrupt
  | advance
  | work (position : Nat) (action : Action)
deriving DecidableEq

inductive Phase where
  | polling
  | starting
  | joining (interruption : Option String)
  | returned (batch : Batch)

structure Pool where
  handed : List (String × Place) := []
  pending : List String
  interrupted : Bool := false
  phase : Phase := .polling

def poolSize (workers : Int) (processors : Nat) : Nat :=
  if workers ≤ 0 then processors else workers.toNat

namespace Place

def isActive : Place → Bool
  | queued | running => true
  | skipped | finished _ => false

def wasCalled : Place → Bool
  | running | finished _ => true
  | queued | skipped => false

def attempt : Place → Attempt
  | finished outcome => some outcome
  | queued | running | skipped => none

def load : Place → Nat
  | queued => 2
  | running => 1
  | skipped | finished _ => 0

end Place

def Action.apply (verify : String → Except String Result) (interrupted : Bool) (label : String) :
    Action → Place → Option Place
  | .call, .queued => if interrupted then none else some .running
  | .skip, .queued => if interrupted then some .skipped else none
  | .finish, .running => some (.finished (verify label))
  | _, _ => none

def Phase.isReturned : Phase → Bool
  | returned _ => true
  | polling | starting | joining _ => false

namespace Pool

variable (verify : String → Except String Result) (limit : Nat) (reason : String)

def active (pool : Pool) : Nat := pool.handed.countP fun worker => worker.2.isActive

def attempts (pool : Pool) : List (String × Attempt) :=
  pool.handed.map (fun (label, place) => (label, place.attempt)) ++ pool.pending.map fun label => (label, none)

def interruption (pool : Pool) : Option String := if pool.interrupted then some reason else none

def advance (pool : Pool) : Option Pool :=
  match pool.phase, pool.pending with
  | .polling, [] => some { pool with phase := .joining none }
  | .polling, _ :: _ =>
      match pool.interruption reason with
      | some reason => some { pool with phase := .joining (some reason) }
      | none => some { pool with phase := .starting }
  | .starting, label :: rest =>
      if pool.active < limit then
        some { pool with handed := pool.handed ++ [(label, .queued)], pending := rest, phase := .polling }
      else none
  | .joining interruption, _ =>
      if pool.active = 0 then
        some { pool with
          phase := .returned (Batch.gather pool.attempts (interruption <|> pool.interruption reason)) }
      else none
  | _, _ => none

def work (pool : Pool) (position : Nat) (action : Action) : Option Pool := do
  let (label, place) ← pool.handed[position]?
  let later ← action.apply verify pool.interrupted label place
  return { pool with handed := pool.handed.set position (label, later) }

def step (pool : Pool) (event : Event) : Option Pool :=
  if pool.phase.isReturned then none
  else match event with
    | .interrupt => if pool.interrupted then none else some { pool with interrupted := true }
    | .advance => pool.advance limit reason
    | .work position action => pool.work verify position action

def run (pool : Pool) : List Event → Option Pool
  | [] => some pool
  | event :: rest => (pool.step verify limit reason event).bind fun next => next.run rest

end Pool

def attempted (labels : List String) (events : List Event) : List String :=
  (labels.zipIdx.filter fun (_, position) => .work position .call ∈ events).map Prod.fst

def resultFor (verify : String → Except String Result) (label : String) : Result :=
  match verify label with
  | .ok result => result
  | .error message => Batch.failedResult label message

def failureFor (verify : String → Except String Result) (label : String) : Option String :=
  match verify label with
  | .ok _ => none
  | .error message => some (label ++ ": " ++ message)

-- The batch tells of each theorem that was attempted what verifying it gives, and of no other.
structure Batch.Reports (verify : String → Except String Result) (reason : String) (labels : List String)
    (events : List Event) (batch : Batch) : Prop where
  order : (attempted labels events).Sublist labels
  results : batch.results = (attempted labels events).map (resultFor verify)
  complete : .interrupt ∉ events → attempted labels events = labels
  sequential : .interrupt ∉ events → batch = Batch.process (m := Id) none verify labels
  clean : batch.failureText = none ↔
    (∀ label ∈ attempted labels events, ∃ result, verify label = .ok result) ∧ .interrupt ∉ events
  joined : batch.failureText ≠ none → batch.failureText = some ("\n".intercalate
    ((attempted labels events).filterMap (failureFor verify) ++ if .interrupt ∈ events then [reason] else []))
  erroneous : ∀ database, (Summary.ofResults database batch.results).erroneous =
    ((attempted labels events).filter fun label => (resultFor verify label).verdict.isFailure).map
      fun label => (resultFor verify label).label
  incomplete : ∀ database, (Summary.ofResults database batch.results).incomplete =
    ((attempted labels events).filter fun label => (resultFor verify label).verdict == .incomplete).map
      fun label => (resultFor verify label).label
  named : (∀ label result, verify label = .ok result → result.label = label) →
    ∀ database, (Summary.ofResults database batch.results).erroneous =
        (attempted labels events).filter (fun label => (resultFor verify label).verdict.isFailure) ∧
      (Summary.ofResults database batch.results).incomplete =
        (attempted labels events).filter (fun label => (resultFor verify label).verdict == .incomplete)

inductive Pool.Transition (verify : String → Except String Result) (limit : Nat) (reason : String)
    (pool : Pool) : Event → Pool → Prop where
  | interrupt (unreturned : pool.phase.isReturned = false) (undisturbed : pool.interrupted = false) :
      Transition verify limit reason pool .interrupt { pool with interrupted := true }
  | exhaust (polling : pool.phase = .polling) (empty : pool.pending = []) :
      Transition verify limit reason pool .advance { pool with phase := .joining none }
  | stop (polling : pool.phase = .polling) (more : pool.pending ≠ []) (interrupted : pool.interrupted = true) :
      Transition verify limit reason pool .advance { pool with phase := .joining (some reason) }
  | proceed (polling : pool.phase = .polling) (more : pool.pending ≠ []) (undisturbed : pool.interrupted = false) :
      Transition verify limit reason pool .advance { pool with phase := .starting }
  | start (label : String) (rest : List String) (starting : pool.phase = .starting)
      (first : pool.pending = label :: rest) (room : pool.active < limit) :
      Transition verify limit reason pool .advance { pool with
        handed := pool.handed ++ [(label, .queued)], pending := rest, phase := .polling }
  | collect (interruption : Option String) (joining : pool.phase = .joining interruption)
      (idle : pool.active = 0) :
      Transition verify limit reason pool .advance { pool with
        phase := .returned (Batch.gather pool.attempts (interruption <|> pool.interruption reason)) }
  | work (position : Nat) (action : Action) (label : String) (place later : Place)
      (unreturned : pool.phase.isReturned = false) (found : pool.handed[position]? = some (label, place))
      (applied : action.apply verify pool.interrupted label place = some later) :
      Transition verify limit reason pool (.work position action)
        { pool with handed := pool.handed.set position (label, later) }

section Steps

variable {verify : String → Except String Result} {limit : Nat} {reason : String} {pool next : Pool}

namespace Pool

theorem advance_cases (advanced : pool.advance limit reason = some next) :
    pool.Transition verify limit reason .advance next := by
  obtain ⟨handed, pending, interrupted, phase⟩ := pool
  cases phase with
  | polling =>
      cases pending with
      | nil =>
          cases advanced
          exact .exhaust rfl rfl
      | cons label rest =>
          cases interrupted with
          | true =>
              cases advanced
              exact .stop rfl (List.cons_ne_nil label rest) rfl
          | false =>
              cases advanced
              exact .proceed rfl (List.cons_ne_nil label rest) rfl
  | starting =>
      cases pending with
      | nil => cases advanced
      | cons label rest =>
          simp only [advance, Option.ite_none_right_eq_some, Option.some.injEq] at advanced
          obtain ⟨room, rfl⟩ := advanced
          exact .start label rest rfl rfl room
  | joining interruption =>
      simp only [advance, Option.ite_none_right_eq_some, Option.some.injEq] at advanced
      obtain ⟨idle, rfl⟩ := advanced
      exact .collect interruption rfl idle
  | returned batch => cases advanced

theorem step_cases (event : Event) (stepped : pool.step verify limit reason event = some next) :
    pool.Transition verify limit reason event next := by
  unfold step at stepped
  by_cases returned : pool.phase.isReturned = true
  · rw [if_pos returned] at stepped
    cases stepped
  · rw [if_neg returned] at stepped
    rw [Bool.not_eq_true] at returned
    cases event with
    | interrupt =>
        by_cases interrupted : pool.interrupted = true
        · simp [interrupted] at stepped
        · simp only [interrupted, Bool.false_eq_true, if_false, Option.some.injEq] at stepped
          subst stepped
          exact .interrupt returned (Bool.eq_false_iff.mpr interrupted)
    | advance => exact advance_cases stepped
    | work position action =>
        simp only [work, bind, Option.bind_eq_some_iff, pure, Option.some.injEq] at stepped
        obtain ⟨⟨label, place⟩, found, later, applied, rfl⟩ := stepped
        exact .work position action label place later returned found applied

theorem run_induction (holds : List Event → Pool → Prop)
    (preserved : ∀ past pool event next, holds past pool → pool.Transition verify limit reason event next →
      holds (past ++ [event]) next)
    (events : List Event) (past : List Event) (initial : holds past pool)
    (reached : pool.run verify limit reason events = some next) : holds (past ++ events) next := by
  induction events generalizing pool past with
  | nil =>
      cases reached
      rwa [List.append_nil]
  | cons event rest ih =>
      obtain ⟨middle, stepped, continued⟩ := Option.bind_eq_some_iff.mp reached
      have later := ih (past ++ [event]) (preserved past pool event middle initial (step_cases event stepped))
        continued
      rwa [List.append_assoc] at later

end Pool

end Steps

section Termination

variable {verify : String → Except String Result} {limit : Nat} {reason : String} {pool next : Pool}

theorem Action.apply_load (action : Action) (interrupted : Bool) (label : String) (place later : Place)
    (applied : action.apply verify interrupted label place = some later) :
    place.isActive = true ∧ later.load < place.load := by
  cases action <;> cases place <;> simp [Action.apply] at applied <;>
    simp [← applied, Place.isActive, Place.load]

def Phase.rank : Phase → Nat
  | polling => 2
  | starting | joining _ => 1
  | returned _ => 0

namespace Pool

def load (handed : List (String × Place)) : Nat :=
  handed.foldr (fun worker total => worker.2.load + total) 0

-- The number of steps that are left at most. A theorem that is pending takes two steps of the dispatcher
-- and two of a worker.
def rank (pool : Pool) : Nat :=
  4 * pool.pending.length + load pool.handed + pool.phase.rank + if pool.interrupted then 0 else 1

theorem load_snoc (handed : List (String × Place)) (label : String) (place : Place) :
    load (handed ++ [(label, place)]) = load handed + place.load := by
  induction handed with
  | nil => simp [load]
  | cons first rest ih =>
      simp only [load, List.cons_append, List.foldr_cons] at ih ⊢
      omega

theorem load_set (handed : List (String × Place)) (position : Nat) (label : String) (place later : Place)
    (found : handed[position]? = some (label, place)) (less : later.load < place.load) :
    load (handed.set position (label, later)) < load handed := by
  induction handed generalizing position with
  | nil => cases found
  | cons first rest ih =>
      cases position with
      | zero =>
          cases found
          exact Nat.add_lt_add_right less _
      | succ position => exact Nat.add_lt_add_left (ih position found) _

theorem transition_rank (event : Event) (transition : pool.Transition verify limit reason event next) :
    next.rank < pool.rank := by
  cases transition with
  | interrupt unreturned undisturbed => simp [rank, undisturbed]
  | exhaust polling empty => simp [rank, polling, Phase.rank]
  | stop polling more interrupted => simp [rank, polling, Phase.rank]
  | proceed polling more undisturbed => simp [rank, polling, Phase.rank]
  | start label rest starting first room =>
      simp only [rank, starting, first, List.length_cons, load_snoc, Place.load, Phase.rank]
      omega
  | collect interruption joining idle => simp [rank, joining, Phase.rank]
  | work position action label place later unreturned found applied =>
      have less := load_set pool.handed position label place later found
        (action.apply_load _ _ _ _ applied).2
      simpa [rank] using less

theorem run_active (events : List Event) (few : pool.active ≤ limit)
    (reached : pool.run verify limit reason events = some next) : next.active ≤ limit := by
  refine run_induction (fun _ current => current.active ≤ limit) ?_ events [] few reached
  intro past current event later bound transition
  cases transition with
  | start label rest starting first room =>
      simp only [active, List.countP_append, List.countP_singleton, Place.isActive, if_true] at room ⊢
      exact room
  | work position action label place changed unreturned found applied =>
      obtain ⟨inside, own⟩ := List.getElem?_eq_some_iff.mp found
      have working := (action.apply_load _ _ _ _ applied).1
      have occupied : 0 < current.active := List.countP_pos_iff.mpr ⟨_, List.mem_of_getElem? found, working⟩
      simp only [active, List.countP_set inside, own, working, if_true] at bound occupied ⊢
      split <;> omega
  | _ => exact bound

theorem run_length (events : List Event) (reached : pool.run verify limit reason events = some next) :
    events.length + next.rank ≤ pool.rank := by
  have bounded := run_induction (fun past current => past.length + current.rank ≤ pool.rank)
    (fun past current event later bound transition => by
      have less := transition_rank event transition
      simp only [List.length_append, List.length_singleton]
      omega)
    events [] (by simp) reached
  simpa using bounded

end Pool

end Termination

section Progress

variable {verify : String → Except String Result} {limit : Nat} {reason : String} {pool next : Pool}

namespace Pool

def Consistent (reason : String) (pool : Pool) : Prop :=
  match pool.phase with
  | .polling => True
  | .starting => pool.pending ≠ []
  | .joining none => pool.pending = []
  | .joining (some cause) => pool.interrupted = true ∧ cause = reason
  | .returned batch =>
      pool.active = 0 ∧ (pool.interrupted = true ∨ pool.pending = []) ∧
        batch = Batch.gather pool.attempts (pool.interruption reason)

-- The pool is what `events` have made of a batch of `labels`.
structure Follows (verify : String → Except String Result) (reason : String) (labels : List String)
    (events : List Event) (pool : Pool) : Prop where
  labels : pool.handed.map Prod.fst ++ pool.pending = labels
  interrupted : pool.interrupted = true ↔ .interrupt ∈ events
  called : ∀ position, .work position .call ∈ events ↔
    ∃ label place, pool.handed[position]? = some (label, place) ∧ place.wasCalled = true
  finished : ∀ label outcome, (label, .finished outcome) ∈ pool.handed → outcome = verify label
  skipped : ∀ label, (label, .skipped) ∈ pool.handed → pool.interrupted = true
  phase : pool.Consistent reason

theorem opened_follows (labels : List String) (interrupted : Bool) :
    Follows verify reason labels (if interrupted then [.interrupt] else []) { pending := labels, interrupted } := by
  cases interrupted <;> constructor <;> simp [Consistent]

end Pool

theorem Action.apply_called (action : Action) (interrupted : Bool) (label : String) (place later : Place)
    (applied : action.apply verify interrupted label place = some later) :
    later.wasCalled = true ↔ action = .call ∨ place.wasCalled = true := by
  cases action <;> cases place <;> simp [Action.apply] at applied <;>
    simp [← applied, Place.wasCalled]

theorem Action.apply_finished (action : Action) (interrupted : Bool) (label : String) (place : Place)
    (outcome : Except String Result)
    (applied : action.apply verify interrupted label place = some (.finished outcome)) :
    outcome = verify label := by
  cases action <;> cases place <;> simp [Action.apply] at applied
  exact applied.symm

theorem Action.apply_skipped (action : Action) (interrupted : Bool) (label : String) (place : Place)
    (applied : action.apply verify interrupted label place = some .skipped) : interrupted = true := by
  cases action <;> cases place <;> simp [Action.apply] at applied
  exact applied

namespace Pool

theorem Consistent.of_unreturned (consistent : pool.Consistent reason)
    (unreturned : pool.phase.isReturned = false) (samePhase : next.phase = pool.phase)
    (samePending : next.pending = pool.pending)
    (later : pool.interrupted = true → next.interrupted = true) : next.Consistent reason := by
  unfold Consistent at consistent ⊢
  rw [samePhase, samePending]
  cases phase : pool.phase with
  | polling => trivial
  | starting => simpa only [phase] using consistent
  | joining interruption =>
      cases interruption with
      | none => simpa only [phase] using consistent
      | some cause =>
          rw [phase] at consistent
          exact ⟨later consistent.1, consistent.2⟩
  | returned batch => simp [phase, Phase.isReturned] at unreturned

variable {labels : List String} {past : List Event}

theorem Follows.with_phase (follows : pool.Follows verify reason labels past) (phase : Phase)
    (consistent : { pool with phase }.Consistent reason) :
    Follows verify reason labels (past ++ [.advance]) { pool with phase } := by
  refine ⟨follows.labels, ?_, ?_, follows.finished, follows.skipped, consistent⟩
  · simpa using follows.interrupted
  · simpa using follows.called

theorem Follows.transition (follows : pool.Follows verify reason labels past) (event : Event)
    (transition : pool.Transition verify limit reason event next) :
    next.Follows verify reason labels (past ++ [event]) := by
  cases transition with
  | interrupt unreturned undisturbed =>
      refine ⟨follows.labels, by simp, by simpa using follows.called, follows.finished, fun _ _ => rfl, ?_⟩
      exact follows.phase.of_unreturned unreturned rfl rfl fun _ => rfl
  | exhaust polling empty => exact follows.with_phase (.joining none) empty
  | stop polling more interrupted => exact follows.with_phase (.joining (some reason)) ⟨interrupted, rfl⟩
  | proceed polling more undisturbed => exact follows.with_phase .starting more
  | start label rest starting first room =>
      refine ⟨?_, by simpa using follows.interrupted, ?_, ?_, ?_, trivial⟩
      · simpa [first] using follows.labels
      · intro position
        have before := follows.called position
        grind [Place.wasCalled]
      · intro label outcome member
        exact follows.finished label outcome (by simpa using member)
      · intro label member
        exact follows.skipped label (by simpa using member)
  | collect interruption joining idle =>
      have consistent := follows.phase
      rw [Consistent, joining] at consistent
      refine follows.with_phase (.returned _) ⟨idle, ?_, ?_⟩
      · cases interruption with
        | none => exact Or.inr consistent
        | some cause => exact Or.inl consistent.1
      · cases interruption with
        | none => rfl
        | some cause =>
            obtain ⟨interrupted, rfl⟩ := consistent
            simp [Pool.interruption, attempts, interrupted]
  | work position action label place later unreturned found applied =>
      refine ⟨?_, by simpa using follows.interrupted, ?_, ?_, ?_, ?_⟩
      · have same : (pool.handed.set position (label, later)).map Prod.fst = pool.handed.map Prod.fst := by
          apply List.ext_getElem?
          grind
        rw [same]
        exact follows.labels
      · intro other
        have before := follows.called other
        have called := action.apply_called _ _ _ _ applied
        grind
      · intro other outcome member
        rcases List.mem_or_eq_of_mem_set member with old | changed
        · exact follows.finished other outcome old
        · cases changed
          exact action.apply_finished _ _ _ _ applied
      · intro other member
        rcases List.mem_or_eq_of_mem_set member with old | changed
        · exact follows.skipped other old
        · cases changed
          exact action.apply_skipped _ _ _ applied
      · exact follows.phase.of_unreturned unreturned rfl rfl id

theorem run_follows (labels : List String) (interrupted : Bool) (events : List Event)
    (reached : Pool.run verify limit reason { pending := labels, interrupted } events = some pool) :
    pool.Follows verify reason labels ((if interrupted then [.interrupt] else []) ++ events) :=
  run_induction (fun past current => current.Follows verify reason labels past)
    (fun _ _ event _ follows transition => follows.transition event transition) events _
    (opened_follows labels interrupted) reached

theorem Follows.interruption (follows : pool.Follows verify reason labels past) (batch : Batch)
    (returned : pool.phase = .returned batch) : batch.interruption = pool.interruption reason := by
  have consistent := follows.phase
  rw [Consistent, returned] at consistent
  rw [consistent.2.2]
  rfl

theorem advance_some (consistent : pool.Consistent reason) (room : 0 < limit)
    (unreturned : pool.phase.isReturned = false) (idle : pool.active = 0) :
    (pool.advance limit reason).isSome = true := by
  unfold Consistent at consistent
  unfold advance
  cases phase : pool.phase with
  | polling =>
      cases pool.pending with
      | nil => rfl
      | cons label rest => cases pool.interruption reason <;> rfl
  | starting =>
      cases pending : pool.pending with
      | nil => simp [phase, pending] at consistent
      | cons label rest => simp [idle, room]
  | joining interruption => simp [idle]
  | returned batch => simp [phase, Phase.isReturned] at unreturned

theorem work_some (verify : String → Except String Result) (position : Nat) (label : String)
    (place : Place) (active : place.isActive = true)
    (found : pool.handed[position]? = some (label, place)) :
    ∃ action, (pool.work verify position action).isSome = true := by
  cases place with
  | queued =>
      cases interrupted : pool.interrupted with
      | true => exact ⟨.skip, by simp [work, found, Action.apply, interrupted]⟩
      | false => exact ⟨.call, by simp [work, found, Action.apply, interrupted]⟩
  | running => exact ⟨.finish, by simp [work, found, Action.apply]⟩
  | skipped => cases active
  | finished outcome => cases active

theorem step_some (follows : pool.Follows verify reason labels past) (room : 0 < limit)
    (unreturned : pool.phase.isReturned = false) :
    ∃ event, event ≠ .interrupt ∧ (pool.step verify limit reason event).isSome = true := by
  by_cases idle : pool.active = 0
  · refine ⟨.advance, by simp, ?_⟩
    simpa [step, unreturned] using advance_some follows.phase room unreturned idle
  · obtain ⟨⟨label, place⟩, member, active⟩ := List.countP_pos_iff.mp (Nat.pos_of_ne_zero idle)
    obtain ⟨position, found⟩ := List.mem_iff_getElem?.mp member
    obtain ⟨action, worked⟩ := work_some verify position label place active found
    refine ⟨.work position action, by simp, ?_⟩
    simpa [step, unreturned] using worked

end Pool

end Progress

section Outcome

variable {verify : String → Except String Result} {reason : String} {labels : List String}
  {events : List Event} {pool : Pool}

def traced (verify : String → Except String Result) (labels : List String) (events : List Event) :
    List (String × Attempt) :=
  labels.zipIdx.map fun (label, position) =>
    (label, if .work position .call ∈ events then some (verify label) else none)

theorem Pool.settled_of_idle (idle : pool.active = 0) (worker : String × Place)
    (member : worker ∈ pool.handed) : worker.2.isActive = false := by
  simpa using List.countP_eq_zero.mp idle worker member

theorem Pool.Follows.attempt_called (follows : pool.Follows verify reason labels events)
    (idle : pool.active = 0) (position : Nat) (label : String) (place : Place)
    (found : pool.handed[position]? = some (label, place)) :
    place.attempt = if .work position .call ∈ events then some (verify label) else none := by
  have member := List.mem_of_getElem? found
  have settled := pool.settled_of_idle idle _ member
  have called := follows.called position
  rw [found] at called
  cases place with
  | queued => cases settled
  | running => cases settled
  | skipped =>
      rw [if_neg (by simp [called, Place.wasCalled])]
      rfl
  | finished outcome =>
      rw [if_pos (called.mpr ⟨label, _, rfl, rfl⟩), ← follows.finished label outcome member]
      rfl

theorem Pool.Follows.attempts_traced (follows : pool.Follows verify reason labels events)
    (idle : pool.active = 0) : pool.attempts = traced verify labels events := by
  apply List.ext_getElem?
  intro position
  have whole := congrArg (fun labels => labels[position]?) follows.labels
  simp only [traced, Pool.attempts, List.getElem?_append, List.getElem?_map, List.length_map,
    List.getElem?_zipIdx] at whole ⊢
  rw [← whole]
  cases found : pool.handed[position]? with
  | some worker =>
      obtain ⟨label, place⟩ := worker
      have inside := (List.getElem?_eq_some_iff.mp found).1
      simp [inside, follows.attempt_called idle position label place found]
  | none =>
      have outside := List.getElem?_eq_none_iff.mp found
      have uncalled : .work position .call ∉ events := by simp [follows.called position, found]
      rw [if_neg (Nat.not_lt.mpr outside), if_neg (Nat.not_lt.mpr outside)]
      cases pool.pending[position - pool.handed.length]? <;> simp [uncalled]

theorem result_of_verified (label : String) :
    Batch.resultOf label (some (verify label)) = some (resultFor verify label) := by
  unfold resultFor
  cases verify label <;> rfl

theorem failure_of_verified (label : String) :
    Batch.failureOf label (some (verify label)) = failureFor verify label := by
  unfold failureFor
  cases verify label <;> rfl

theorem gather_traced (verify : String → Except String Result) (labels : List String) (events : List Event)
    (interruption : Option String) :
    Batch.gather (traced verify labels events) interruption =
      ⟨(attempted labels events).map (resultFor verify),
        (attempted labels events).filterMap (failureFor verify), interruption⟩ := by
  simp only [traced, attempted, Batch.gather, Batch.mk.injEq, and_true]
  induction labels.zipIdx with
  | nil => exact ⟨rfl, rfl⟩
  | cons first rest ih =>
      obtain ⟨label, position⟩ := first
      by_cases chosen : .work position .call ∈ events
      · simp only [List.map_cons, List.filterMap_cons, List.filter_cons, chosen, decide_true, if_true,
          result_of_verified, failure_of_verified, ih.1, ih.2, true_and]
      · simp only [List.map_cons, List.filterMap_cons, List.filter_cons, chosen, decide_false,
          Bool.false_eq_true, if_false]
        exact ih

theorem process_uninterrupted (verify : String → Except String Result) (labels : List String) :
    Batch.process (m := Id) none verify labels =
      ⟨labels.map (resultFor verify), labels.filterMap (failureFor verify), none⟩ := by
  have whole : ∀ labels, Batch.attempts (m := Id) none verify labels =
      (labels.map fun label => (label, some (verify label)), none) := by
    intro labels
    induction labels with
    | nil => rfl
    | cons label rest ih =>
        change ((label, some (verify label)) :: (Batch.attempts (m := Id) none verify rest).1,
          (Batch.attempts (m := Id) none verify rest).2) = _
        rw [ih]
        rfl
  have gathered : Batch.process (m := Id) none verify labels =
      Batch.gather (labels.map fun label => (label, some (verify label))) none := by
    unfold Batch.process
    rw [whole]
    rfl
  rw [gathered, Batch.gather, List.filterMap_map, List.filterMap_map, ← List.filterMap_eq_map]
  congr 2
  · funext label
    exact result_of_verified label
  · funext label
    exact failure_of_verified label

theorem attempted_sublist (labels : List String) (events : List Event) :
    (attempted labels events).Sublist labels := by
  have selected : (attempted labels events).Sublist (labels.zipIdx.map Prod.fst) :=
    List.filter_sublist.map Prod.fst
  rwa [List.zipIdx_map_fst] at selected

theorem Pool.Follows.attempted_all (follows : pool.Follows verify reason labels events)
    (idle : pool.active = 0) (exhausted : pool.pending = []) (undisturbed : .interrupt ∉ events) :
    attempted labels events = labels := by
  have everyone : labels.zipIdx.filter (fun worker => .work worker.2 .call ∈ events) = labels.zipIdx := by
    apply List.filter_eq_self.mpr
    rintro ⟨label, position⟩ member
    have whole := follows.labels
    rw [exhausted, List.append_nil] at whole
    have present := List.mem_zipIdx_iff_getElem?.mp member
    rw [← whole, List.getElem?_map, Option.map_eq_some_iff] at present
    obtain ⟨⟨_, place⟩, found, rfl⟩ := present
    have member := List.mem_of_getElem? found
    have settled := pool.settled_of_idle idle _ member
    have attempted : place.wasCalled = true := by
      cases place with
      | queued => cases settled
      | running => rfl
      | skipped => exact absurd (follows.interrupted.mp (follows.skipped _ member)) undisturbed
      | finished outcome => rfl
    exact decide_eq_true ((follows.called position).mpr ⟨_, place, found, attempted⟩)
  rw [attempted, everyone, List.zipIdx_map_fst]

theorem failure_text_none (batch : Batch) :
    batch.failureText = none ↔ batch.failures = [] ∧ batch.interruption = none := by
  simp [Batch.failureText]

theorem failure_text_joined (batch : Batch) (failing : batch.failureText ≠ none) :
    batch.failureText = some ("\n".intercalate (batch.failures ++ batch.interruption.toList)) := by
  by_cases empty : (batch.failures ++ batch.interruption.toList).isEmpty = true
  · simp [Batch.failureText, empty] at failing
  · simp only [Batch.failureText, if_neg empty]

theorem failure_for_none (label : String) :
    failureFor verify label = none ↔ ∃ result, verify label = .ok result := by
  unfold failureFor
  cases verify label <;> simp

theorem result_for_label (own : ∀ label result, verify label = .ok result → result.label = label)
    (label : String) : (resultFor verify label).label = label := by
  unfold resultFor
  cases verified : verify label with
  | ok result => exact own label result verified
  | error message => rfl

theorem summary_selected (verify : String → Except String Result) (labels : List String)
    (database : String) :
    (Summary.ofResults database (labels.map (resultFor verify))).erroneous =
        (labels.filter fun label => (resultFor verify label).verdict.isFailure).map
          (fun label => (resultFor verify label).label) ∧
      (Summary.ofResults database (labels.map (resultFor verify))).incomplete =
        (labels.filter fun label => (resultFor verify label).verdict == .incomplete).map
          fun label => (resultFor verify label).label := by
  simp only [Summary.ofResults, List.filter_map, List.map_map]
  exact ⟨rfl, rfl⟩

theorem Pool.Follows.reports (follows : pool.Follows verify reason labels events) (batch : Batch)
    (returned : pool.phase = .returned batch) : batch.Reports verify reason labels events := by
  have consistent := follows.phase
  rw [Pool.Consistent, returned] at consistent
  obtain ⟨idle, ended, rfl⟩ := consistent
  rw [follows.attempts_traced idle, gather_traced]
  have interruption : pool.interruption reason = if .interrupt ∈ events then some reason else none := by
    simp only [Pool.interruption, follows.interrupted]
  have whole : .interrupt ∉ events → attempted labels events = labels := by
    intro undisturbed
    have exhausted := ended.resolve_left (mt follows.interrupted.mp undisturbed)
    exact follows.attempted_all idle exhausted undisturbed
  refine ⟨attempted_sublist labels events, rfl, whole, ?_, ?_, ?_, ?_, ?_, ?_⟩
  · intro undisturbed
    rw [process_uninterrupted, whole undisturbed, interruption, if_neg undisturbed]
  · rw [failure_text_none, List.filterMap_eq_nil_iff, interruption]
    simp [failure_for_none]
  · intro failing
    rw [failure_text_joined _ failing, interruption]
    split <;> rfl
  · intro database
    exact (summary_selected verify (attempted labels events) database).1
  · intro database
    exact (summary_selected verify (attempted labels events) database).2
  · intro own database
    obtain ⟨erroneous, incomplete⟩ := summary_selected verify (attempted labels events) database
    rw [erroneous, incomplete]
    simp only [result_for_label own, List.map_id', and_self]

end Outcome

theorem pool_size_pos (workers : Int) (processors : Nat) (equipped : 0 < processors) :
    0 < poolSize workers processors := by
  unfold poolSize
  split <;> omega

theorem every_schedule_reports (verify : String → Except String Result) (workers : Int) (processors : Nat)
    (equipped : 0 < processors) (reason : String) (labels : List String) (events : List Event) (pool : Pool)
    (reached :
      Pool.run verify (poolSize workers processors) reason { pending := labels } events = some pool) :
    events.length ≤ 4 * labels.length + 3 ∧
      (pool.phase.isReturned = false → ∃ event, event ≠ .interrupt ∧
        (pool.step verify (poolSize workers processors) reason event).isSome = true) ∧
      ∀ batch, pool.phase = .returned batch → batch.Reports verify reason labels events := by
  have follows := Pool.run_follows labels false events reached
  refine ⟨?_, ?_, follows.reports⟩
  · have bounded := Pool.run_length events reached
    simp only [Pool.rank, Pool.load, List.foldr_nil, Phase.rank, Bool.false_eq_true, if_false] at bounded
    omega
  · exact Pool.step_some follows (pool_size_pos workers processors equipped)

def sampleSchedule : List Event :=
  [.advance, .advance, .advance, .advance, .work 1 .call, .work 0 .call, .work 1 .finish, .advance, .advance,
    .interrupt, .work 2 .skip, .advance, .work 0 .finish, .advance]

def sampleVerifier (label : String) : Except String Result :=
  if label = "a" then .ok { label := "a", verdict := .error } else .error "no proof"

theorem every_schedule_reports_sample : attempted ["a", "b", "c"] sampleSchedule = ["a", "b"] ∧
    ∃ pool batch, Pool.run sampleVerifier (poolSize 2 1) "cancelled" { pending := ["a", "b", "c"] }
        sampleSchedule = some pool ∧ pool.phase = .returned batch ∧
      batch.Reports sampleVerifier "cancelled" ["a", "b", "c"] sampleSchedule := by
  refine ⟨by decide, _, _, rfl, rfl, ?_⟩
  exact (every_schedule_reports sampleVerifier 2 1 (by decide) "cancelled" ["a", "b", "c"] sampleSchedule _
    rfl).2.2 _ rfl

def countdown (reason : String) : StateM Nat (Option String)
  | 0 => (some reason, 0)
  | looks + 1 => (none, looks)

section Sequential

variable {verify : String → Except String Result} {limit : Nat} {reason : String}

def Pool.Returns (verify : String → Except String Result) (limit : Nat) (reason : String) (pool : Pool)
    (batch : Batch) : Prop :=
  ∃ events final, pool.run verify limit reason events = some final ∧ final.phase = .returned batch

theorem Pool.Returns.after {pool next : Pool} {batch : Batch} (event : Event)
    (returns : next.Returns verify limit reason batch)
    (stepped : pool.step verify limit reason event = some next) : pool.Returns verify limit reason batch := by
  obtain ⟨events, final, reached, returned⟩ := returns
  refine ⟨event :: events, final, ?_, returned⟩
  rw [Pool.run, stepped]
  exact reached

theorem Pool.returns_collected (pool : Pool) (interruption : Option String)
    (joining : pool.phase = .joining interruption) (idle : pool.active = 0) :
    pool.Returns verify limit reason
      (Batch.gather pool.attempts (interruption <|> pool.interruption reason)) := by
  refine ⟨[.advance], { pool with phase := .returned _ }, ?_, rfl⟩
  simp only [Pool.run, Pool.step, joining, Phase.isReturned, Bool.false_eq_true, if_false, Pool.advance, idle,
    if_true, Option.bind_some]

theorem Pool.returns_queued (room : 0 < limit) (label : String) (rest : List String)
    (handed : List (String × Place)) (idle : handed.countP (fun worker => worker.2.isActive) = 0)
    (batch : Batch)
    (returns : Pool.Returns verify limit reason
      { handed := handed ++ [(label, .queued)], pending := rest } batch) :
    Pool.Returns verify limit reason { handed, pending := label :: rest } batch := by
  have starting : Pool.Returns verify limit reason
      { handed, pending := label :: rest, phase := .starting } batch :=
    returns.after .advance (by simp [Pool.step, Phase.isReturned, Pool.advance, Pool.active, idle, room])
  exact starting.after .advance rfl

theorem Pool.returns_attempted (label : String) (rest : List String) (handed : List (String × Place))
    (batch : Batch)
    (returns : Pool.Returns verify limit reason
      { handed := handed ++ [(label, .finished (verify label))], pending := rest } batch) :
    Pool.Returns verify limit reason { handed := handed ++ [(label, .queued)], pending := rest } batch := by
  have running : Pool.Returns verify limit reason
      { handed := handed ++ [(label, .running)], pending := rest } batch :=
    returns.after (.work handed.length .finish)
      (by simp [Pool.step, Phase.isReturned, Pool.work, Action.apply])
  exact running.after (.work handed.length .call)
    (by simp [Pool.step, Phase.isReturned, Pool.work, Action.apply])

theorem Pool.returns_skipped (label : String) (rest : List String) (handed : List (String × Place))
    (batch : Batch)
    (returns : Pool.Returns verify limit reason
      { handed := handed ++ [(label, .skipped)], pending := rest, interrupted := true } batch) :
    Pool.Returns verify limit reason { handed := handed ++ [(label, .queued)], pending := rest } batch := by
  have disturbed : Pool.Returns verify limit reason
      { handed := handed ++ [(label, .queued)], pending := rest, interrupted := true } batch :=
    returns.after (.work handed.length .skip)
      (by simp [Pool.step, Phase.isReturned, Pool.work, Action.apply])
  exact disturbed.after .interrupt rfl

theorem Pool.returns_disturbed (handed : List (String × Place)) (labels : List String) (interrupted : Bool)
    (batch : Batch)
    (returns : Pool.Returns verify limit reason { handed, pending := labels, interrupted := true } batch) :
    Pool.Returns verify limit reason { handed, pending := labels, interrupted } batch := by
  cases interrupted with
  | true => exact returns
  | false => exact returns.after .interrupt rfl

def oneByOne (verify : String → Except String Result) (reason : String) (labels : List String) (looks : Nat) :
    (List (String × Attempt) × Option String) × Nat :=
  Batch.attempts (countdown reason) (fun label => pure (verify label)) labels looks

theorem state_bind {σ α β : Type} (first : StateM σ α) (second : α → StateM σ β) (s : σ) :
    (first >>= second) s = second (first s).1 (first s).2 := rfl

theorem process_one_by_one (labels : List String) (looks : Nat) :
    (Batch.process (countdown reason) (fun label => pure (verify label)) labels looks).1 =
      Batch.gather (oneByOne verify reason labels looks).1.1
        ((oneByOne verify reason labels looks).1.2 <|>
          (countdown reason (oneByOne verify reason labels looks).2).1) := by
  rw [Batch.process, state_bind]
  unfold oneByOne
  generalize Batch.attempts (countdown reason) (fun label => pure (verify label)) labels looks = outcome
  obtain ⟨⟨found, cause⟩, left⟩ := outcome
  cases cause <;> rfl

theorem one_by_one_stopped (verify : String → Except String Result) (reason : String) (labels : List String)
    (looks : Nat) (stopped : (oneByOne verify reason labels looks).1.2 ≠ none) :
    (oneByOne verify reason labels looks).2 = 0 := by
  induction labels generalizing looks with
  | nil => exact absurd rfl stopped
  | cons label rest ih =>
      match looks with
      | 0 => rfl
      | 1 => exact ih 0 stopped
      | looks + 2 => exact ih looks stopped

theorem process_interrupted (labels : List String) (looks : Nat)
    (interrupted : (Batch.process (countdown reason) (fun label => pure (verify label)) labels looks).1.interruption
      ≠ none) :
    (Batch.process (countdown reason) (fun label => pure (verify label)) labels looks).2 = 0 := by
  have stopped := one_by_one_stopped verify reason labels looks
  rw [Batch.process, state_bind] at interrupted ⊢
  unfold oneByOne at stopped
  generalize Batch.attempts (countdown reason) (fun label => pure (verify label)) labels looks = outcome
    at stopped interrupted ⊢
  obtain ⟨⟨found, cause⟩, left⟩ := outcome
  cases cause with
  | some reason => exact stopped (Option.some_ne_none reason)
  | none =>
      cases left with
      | zero => rfl
      | succ left => exact absurd rfl interrupted

theorem Pool.returns_one_by_one (room : 0 < limit) (labels : List String) (handed : List (String × Place))
    (idle : handed.countP (fun worker => worker.2.isActive) = 0) (interrupted : Bool) (looks : Nat)
    (lasting : interrupted = true → looks = 0) :
    Pool.Returns verify limit reason { handed, pending := labels, interrupted }
      (Batch.gather
        (handed.map (fun (label, place) => (label, place.attempt)) ++ (oneByOne verify reason labels looks).1.1)
        ((oneByOne verify reason labels looks).1.2 <|>
          (countdown reason (oneByOne verify reason labels looks).2).1)) := by
  induction labels generalizing handed interrupted looks with
  | nil =>
      cases looks with
      | zero =>
          refine Pool.returns_disturbed handed [] interrupted _ (.after .advance ?_ rfl)
          exact Pool.returns_collected _ none rfl idle
      | succ looks =>
          obtain rfl : interrupted = false := by simpa using lasting
          refine .after .advance ?_ rfl
          exact Pool.returns_collected _ none rfl idle
  | cons label rest ih =>
      match looks with
      | 0 =>
          refine Pool.returns_disturbed handed (label :: rest) interrupted _ (.after .advance ?_ rfl)
          exact Pool.returns_collected _ (some reason) rfl idle
      | 1 =>
          obtain rfl : interrupted = false := by simpa using lasting
          have continued := ih (handed ++ [(label, .skipped)])
            (by rw [List.countP_append, idle]; rfl) true 0 fun _ => rfl
          rw [List.map_append, List.append_assoc] at continued
          exact Pool.returns_queued room label rest handed idle _
            (Pool.returns_skipped label rest handed _ continued)
      | looks + 2 =>
          obtain rfl : interrupted = false := by simpa using lasting
          have continued := ih (handed ++ [(label, .finished (verify label))])
            (by rw [List.countP_append, idle]; rfl) false looks (by simp)
          rw [List.map_append, List.append_assoc] at continued
          exact Pool.returns_queued room label rest handed idle _
            (Pool.returns_attempted label rest handed _ continued)

theorem process_scheduled (verify : String → Except String Result) (reason : String) (workers : Int)
    (processors : Nat) (equipped : 0 < processors) (labels : List String) (interrupted : Bool) (looks : Nat)
    (lasting : interrupted = true → looks = 0) :
    Pool.Returns verify (poolSize workers processors) reason { pending := labels, interrupted }
      (Batch.process (countdown reason) (fun label => pure (verify label)) labels looks).1 := by
  rw [process_one_by_one]
  exact Pool.returns_one_by_one (pool_size_pos workers processors equipped) labels [] rfl interrupted looks
    lasting

end Sequential

end Lemmata
