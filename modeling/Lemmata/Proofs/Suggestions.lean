import Lemmata.Proofs.CutElimination
import Lemmata.Proofs.Permissions
import Mathlib.Data.Nat.Choose.Basic

/-!
Following suggestions. A theorem with more disjoint groups is no worse than before. A suggested group takes
away the violation that it was suggested for, and the next error, if there is one, is no earlier. Every
suggestion names two variables that the theorem did not keep apart until then, so there is an end to them.
-/

set_option autoImplicit false

namespace Lemmata

section Errors

variable {t : Table} {checkDisjoint : Bool} {run next : Run} {instruction : Instruction}

theorem Run.errs_counted (wrong : run.errs t checkDisjoint instruction = true)
    (stepped : run.step t checkDisjoint instruction = .ok next) : 0 < next.errorCount := by
  cases instruction with
  | reference id =>
      simp only [errs, Option.any_eq_true, Bool.and_eq_true, rejects, Bool.or_eq_true, decide_eq_true_eq] at wrong
      obtain ⟨own, stands, asserted, failing⟩ := wrong
      cases step_performs stepped with
      | hypothesis _ h found supposed =>
          obtain rfl := Option.some.inj (stands.symm.trans found)
          rw [own.hypothesis_not_assertion supposed] at asserted
          cases asserted
      | missing _ s message found _ few =>
          simp [push, fail_counted]
      | applied _ s found _ enough =>
          obtain rfl := Option.some.inj (stands.symm.trans found)
          rw [apply_to_counted]
          have failed := failing.resolve_left (Nat.not_lt.mpr enough)
          have below : (({ run with stack := run.stack.drop own.frame.required.length }.applicationOf t own
              (run.stack.take own.frame.required.length).reverse).unify t checkDisjoint).error.isSome = true :=
            failed
          rw [below]
          simp
  | _ => cases wrong

theorem Run.error_steps_clean (front rest : Proof) (run before : Run) (more : rest ≠ [])
    (ran : front.foldlM (step t checkDisjoint) run = .ok before) (clean : before.errorCount = 0) :
    ∀ step ∈ errorSteps t checkDisjoint run (front ++ rest), before.formulas.length ≤ step := by
  induction front generalizing run with
  | nil =>
      cases ran
      obtain ⟨first, others, rfl⟩ := List.exists_cons_of_ne_nil more
      intro step member
      rcases (mem_error_steps first others step).mp member with ⟨_, rfl⟩ | ⟨next, stepped, later⟩
      · exact Nat.le_refl _
      · have length := step_length t checkDisjoint _ next first stepped
        have bound := error_steps_from others step later
        omega
  | cons instruction behind ih =>
      rw [List.foldlM_cons, bind_ok] at ran
      obtain ⟨next, stepped, others⟩ := ran
      intro step member
      rcases (mem_error_steps instruction (behind ++ rest) step).mp member with ⟨wrong, _⟩ | ⟨after, same, later⟩
      · have counted := errs_counted wrong stepped
        have fine := run_clean behind next before others clean
        omega
      · obtain rfl : next = after := Except.ok.inj (stepped.symm.trans same)
        exact ih next others step later

end Errors

namespace Source

variable {source : Source} {t : Table} {owner : Statement} {further : List (List String)}

structure Extended (source : Source) (t : Table) (owner : Statement) (further : List (List String))
    (revise : Statement → Statement) : Prop where
  built : (source.keepApart owner.label further).build = .ok (t.revised revise)
  coherent : (t.revised revise).Coherent
  ordered : (t.revised revise).Ordered
  revision : Statement.Revision revise
  wider : owner.Widens (revise owner)
  proof : (revise owner).proof = owner.proof
  kept : ∀ s ∈ t.statements, s ≠ owner → revise s = s
  permitted : ∀ x y, (revise owner).frame.allowsDisjoint x y = true ↔
    owner.frame.allowsDisjoint x y = true ∨ x ≠ y ∧ t.Together further x y

theorem build_sound (built : source.build = .ok t) : t.Coherent ∧ t.Ordered := by
  obtain ⟨declarations, tableBuilt⟩ := source.build_table t built
  exact ⟨Table.build_coherent _ declarations t tableBuilt, Table.build_ordered _ declarations t tableBuilt⟩

theorem extended (built : source.build = .ok t) (proved : owner ∈ t.theorems)
    (valid : ∀ group ∈ further, source.Groups group) : ∃ revise, source.Extended t owner further revise := by
  have coherent := (build_sound built).1
  obtain ⟨member, asserted⟩ := t.theorem_asserted owner proved
  have labelled := (coherent.formed owner member).labelled.mpr (Or.inr asserted)
  obtain ⟨disjoint, optionalDisjoint, again, regroups⟩ :=
    keep_apart_built built owner.label labelled further valid
  have revision := Statement.regrouped_revision owner.label disjoint optionalDisjoint
  have permitted := regroups owner member rfl asserted
  refine ⟨_, again, (build_sound again).1, (build_sound again).2, revision, ?_, ?_, ?_, permitted⟩
  · exact ⟨revision.label owner, revision.formula owner,
      fun x y allowed => (permitted x y).mpr (Or.inl allowed)⟩
  · unfold Statement.regrouped
    split <;> rfl
  · intro s present other
    refine s.regrouped_other owner.label _ _ fun same => other ?_
    exact (coherent.same_label owner s member present labelled same.symm).symm

theorem Extended.proved {revise : Statement → Statement} (extended : source.Extended t owner further revise)
    (proved : owner ∈ t.theorems) : revise owner ∈ (t.revised revise).theorems := by
  rw [t.theorems_revised extended.revision]
  exact List.mem_map_of_mem proved

def variableSymbols (source : Source) : List Symbol :=
  (List.range' source.constantNames.length source.variableNames.length).map Int.ofNat

theorem variable_named (built : source.build = .ok t) (x : Symbol) (var : t.isVariable x = true) :
    t.symbolName x ∈ source.variableNames ∧ x ∈ source.variableSymbols := by
  obtain ⟨info, found, position, name⟩ := declared_info x (t.variable_declared x var)
  have kind : info.kind = .var := by simpa [Table.isVariable, found] using var
  have nonnegative := ((t.declares_iff x).mp (t.variable_declared x var)).1
  rw [symbols_built built] at position
  by_cases const : x.toNat < source.constantNames.length
  · rw [List.getElem?_append_left (by simpa using const), List.getElem?_map] at position
    obtain ⟨_, _, rfl⟩ := Option.map_eq_some_iff.mp position
    cases kind
  · rw [List.getElem?_append_right (by simpa using const), List.length_map, List.getElem?_map] at position
    obtain ⟨own, place, rfl⟩ := Option.map_eq_some_iff.mp position
    have inside := (List.getElem?_eq_some_iff.mp place).1
    refine ⟨name ▸ List.mem_of_getElem? place, List.mem_map.mpr ⟨x.toNat, ?_, Int.toNat_of_nonneg nonnegative⟩⟩
    rw [List.mem_range'_1]
    omega

-- A suggestion is followed by adding its group to the theorem, which then keeps the two variables apart.
structure Amended (source : Source) (t : Table) (owner : Statement) (x y : Symbol)
    (revise : Statement → Statement) : Prop where
  extended : source.Extended t owner [[t.symbolName x, t.symbolName y]] revise
  first : t.isVariable x = true
  second : t.isVariable y = true
  different : x ≠ y
  before : owner.frame.allowsDisjoint x y = false
  after : (revise owner).frame.allowsDisjoint x y = true

theorem suggested (built : source.build = .ok t) (proved : owner ∈ t.theorems) {checkDisjoint : Bool}
    {inspected : Int} {run : Run} (verified : verify t checkDisjoint inspected owner = .ok run) (issue : Issue)
    (member : issue ∈ run.issues) (x y : String) (suggests : issue.Suggests x y) :
    ∃ u v revise, t.symbolName u = x ∧ t.symbolName v = y ∧ source.Amended t owner u v revise := by
  obtain ⟨coherent, ordered⟩ := build_sound built
  have advised := verify_suggests verified member x y suggests
  obtain ⟨u, v, rfl, rfl, apart, uVar, vVar, forbids⟩ := advised_names ordered x y advised
  have different : u ≠ v := fun same => apart (congrArg t.symbolName same)
  have valid : ∀ group ∈ [[t.symbolName u, t.symbolName v]], source.Groups group := by
    intro group single
    obtain rfl := List.mem_singleton.mp single
    refine ⟨by simpa using apart, ?_⟩
    simpa using ⟨(variable_named built u uVar).1, (variable_named built v vVar).1⟩
  obtain ⟨revise, extended⟩ := extended built proved valid
  refine ⟨u, v, revise, rfl, rfl, extended, uVar, vVar, different, forbids.resolve_left different, ?_⟩
  have named : ∀ w, t.isVariable w = true → t.symbol (t.symbolName w) = some w := fun w var =>
    coherent.symbol_of_name w (t.variable_declared w var)
  have together : t.Together [[t.symbolName u, t.symbolName v]] u v :=
    ⟨_, List.mem_singleton_self _, t.symbolName u, by simp, t.symbolName v, by simp, named u uVar, named v vVar⟩
  exact (extended.permitted u v).mpr (Or.inr ⟨different, together⟩)

namespace Amended

variable {x y : Symbol} {revise : Statement → Statement}

theorem settled (amended : source.Amended t owner x y revise) :
    ¬ (revise owner).Advised (t.revised revise)
        (disjointAdvice (revise owner).label (t.symbolName x) (t.symbolName y)) ∧
      ¬ (revise owner).Advised (t.revised revise)
        (disjointAdvice (revise owner).label (t.symbolName y) (t.symbolName x)) := by
  have coherent := amended.extended.coherent
  have ordered := amended.extended.ordered
  have allowed := amended.after
  constructor
  · intro advised
    rw [(advised_apart coherent ordered x y amended.first amended.second advised).2] at allowed
    cases allowed
  · intro advised
    rw [Frame.allows_disjoint_comm,
      (advised_apart coherent ordered y x amended.second amended.first advised).2] at allowed
    cases allowed

theorem progress (amended : source.Amended t owner x y revise) (coherent : t.Coherent)
    (proved : owner ∈ t.theorems) {checkDisjoint : Bool} {inspected : Int} {run : Run}
    (verified : verify t checkDisjoint inspected owner = .ok run) (issue : Issue) (member : issue ∈ run.issues)
    (violation : issue.rule = Rule.disjointViolation) :
    ∃ next, verify (t.revised revise) checkDisjoint inspected (revise owner) = .ok next ∧
      (∀ step ∈ Run.errorSteps (t.revised revise) checkDisjoint
        { owner := revise owner, proof := next.proof, inspection := inspectionOf next.proof inspected } next.proof,
        issue.step ≤ step) ∧
      ∀ other ∈ next.issues, issue.step ≤ other.step ∧ ¬ other.Suggests (t.symbolName x) (t.symbolName y) ∧
        ¬ other.Suggests (t.symbolName y) (t.symbolName x) := by
  have extended := amended.extended
  have revision := extended.revision
  obtain ⟨proof, count, before, decoded, inside, front, clean, step, _, _⟩ :=
    verify_violation verified member violation
  have kind := (revision.kind owner).trans (t.theorem_kind owner proved)
  obtain ⟨next, nextVerified⟩ := verify_returns extended.coherent (extended.proved proved) checkDisjoint inspected
  have ran := nextVerified
  simp only [verify, kind, extended.proof, Proof.decode_revised t owner revision, decoded, ne_eq,
    not_true_eq_false, if_false] at ran
  obtain ⟨_, tallied⟩ := verify_proof_tallied extended.coherent ran
  have kept := decoded_kept coherent proved extended.kept _ proof decoded
  have again := Run.run_relaxed revision id (proof.take count) _ before extended.wider
    (fun instruction taken => kept instruction (List.mem_of_mem_take taken)) front clean
  have length : before.formulas.length = count := by
    rw [Run.front_length inside front, List.length_nil, Nat.zero_add]
  have late : ∀ place ∈ Run.errorSteps (t.revised revise) checkDisjoint
      { owner := revise owner, proof, inspection := inspectionOf proof inspected } proof, issue.step ≤ place := by
    intro place wrong
    have behind := Run.error_steps_clean (proof.take count) (proof.drop count) _ _ (by simpa using inside) again
      clean place (by rwa [List.take_append_drop])
    rw [step, ← length]
    exact Int.ofNat_le.mpr behind
  refine ⟨next, nextVerified, tallied.runs ▸ late, fun other reported => ⟨?_, ?_, ?_⟩⟩
  · obtain ⟨place, wrong, own, _⟩ := tallied.issue_first (Run.error_steps_ascending proof) other reported
    rw [own]
    exact late place wrong
  · exact fun suggests => amended.settled.1 (verify_suggests nextVerified reported _ _ suggests)
  · exact fun suggests => amended.settled.2 (verify_suggests nextVerified reported _ _ suggests)

end Amended

def Amends (label : String) (source next : Source) : Prop :=
  ∃ t owner checkDisjoint inspected run issue x y, source.build = .ok t ∧ owner ∈ t.theorems ∧
    owner.label = label ∧ verify t checkDisjoint inspected owner = .ok run ∧ issue ∈ run.issues ∧
    issue.Suggests x y ∧ next = source.keepApart label [[x, y]]

end Source

section Pairs

def Statement.unseparated (owner : Statement) (vars : List Symbol) : List (Symbol × Symbol) :=
  (Table.laterPairs vars).filter fun (x, y) => !owner.frame.allowsDisjoint x y

theorem later_pairs_length (vars : List Symbol) : (Table.laterPairs vars).length = vars.length.choose 2 := by
  induction vars with
  | nil => rfl
  | cons first rest ih =>
      rw [Table.laterPairs, List.length_append, List.length_map, ih, List.length_cons, Nat.choose_succ_succ,
        Nat.choose_one_right]

theorem unseparated_bound (owner : Statement) (vars : List Symbol) :
    (owner.unseparated vars).length ≤ vars.length.choose 2 := by
  rw [← later_pairs_length]
  exact List.length_filter_le _ _

theorem unseparated_decreases {owner twin : Statement} (wider : owner.Widens twin) (vars : List Symbol)
    (x y : Symbol) (xMember : x ∈ vars) (yMember : y ∈ vars) (different : x ≠ y)
    (before : owner.frame.allowsDisjoint x y = false) (after : twin.frame.allowsDisjoint x y = true) :
    (twin.unseparated vars).length < (owner.unseparated vars).length := by
  have kept : twin.unseparated vars =
      (owner.unseparated vars).filter fun (x, y) => !twin.frame.allowsDisjoint x y := by
    rw [Statement.unseparated, Statement.unseparated, List.filter_filter]
    refine List.filter_congr fun pair _ => ?_
    cases allowed : owner.frame.allowsDisjoint pair.1 pair.2 with
    | false => simp [allowed]
    | true => simp [wider.permitted _ _ allowed]
  obtain ⟨u, v, later, left, apart⟩ : ∃ u v, (u, v) ∈ Table.laterPairs vars ∧
      owner.frame.allowsDisjoint u v = false ∧ twin.frame.allowsDisjoint u v = true := by
    rcases Table.later_pairs_complete vars x y xMember yMember different with later | later
    · exact ⟨x, y, later, before, after⟩
    · exact ⟨y, x, later, (owner.frame.allows_disjoint_comm y x).trans before,
        (twin.frame.allows_disjoint_comm y x).trans after⟩
  rw [kept, List.length_filter_lt_length_iff_exists]
  exact ⟨(u, v), List.mem_filter.mpr ⟨later, by simp [left]⟩, by simp [apart]⟩

end Pairs

-- Every suggestion that is followed takes one pair away.
theorem amendments_bounded (rest : List Source) (source : Source) (t : Table) (owner : Statement)
    (built : source.build = .ok t) (proved : owner ∈ t.theorems)
    (followed : (source :: rest).IsChain (Source.Amends owner.label)) :
    rest.length ≤ (owner.unseparated source.variableSymbols).length := by
  induction rest generalizing source t owner with
  | nil => exact Nat.zero_le _
  | cons next others ih =>
      obtain ⟨amends, behind⟩ := List.isChain_cons_cons.mp followed
      obtain ⟨t', owner', checkDisjoint, inspected, run, issue, x, y, built', proved', label, verified, member,
        suggests, rfl⟩ := amends
      obtain rfl : t = t' := Except.ok.inj (built.symm.trans built')
      have coherent := (Source.build_sound built).1
      obtain ⟨own, asserted⟩ := t.theorem_asserted owner proved
      have labelled := (coherent.formed owner own).labelled.mpr (Or.inr asserted)
      obtain rfl := coherent.same_label owner owner' own (t.theorem_asserted owner' proved').1 labelled label.symm
      obtain ⟨u, v, revise, rfl, rfl, amended⟩ := Source.suggested built proved verified issue member x y suggests
      have extended := amended.extended
      have onward := ih _ _ (revise owner) extended.built (extended.proved proved) (extended.wider.label ▸ behind)
      have fewer := unseparated_decreases extended.wider source.variableSymbols u v
        (Source.variable_named built u amended.first).2 (Source.variable_named built v amended.second).2
        amended.different amended.before amended.after
      exact Nat.lt_of_le_of_lt onward fewer

theorem permissions_never_hurt (source : Source) (t : Table) (built : source.build = .ok t) (owner : Statement)
    (proved : owner ∈ t.theorems) :
    (∀ further, (∀ group ∈ further, source.Groups group) →
      ∀ checked relaxed, (relaxed = true → checked = true) → ∀ inspected,
        ∃ more twin run relaxedRun, (source.keepApart owner.label further).build = .ok more ∧
          twin ∈ more.theorems ∧ twin.label = owner.label ∧
          verify t checked inspected owner = .ok run ∧ verify more relaxed inspected twin = .ok relaxedRun ∧
          relaxedRun.verdict.rank ≤ run.verdict.rank ∧
          (run.errorCount = 0 → relaxedRun = { run with owner := twin })) ∧
      (∀ checkDisjoint inspected run issue x y, verify t checkDisjoint inspected owner = .ok run →
        issue ∈ run.issues → issue.Suggests x y →
        ∃ more twin next, (source.keepApart owner.label [[x, y]]).build = .ok more ∧
          twin ∈ more.theorems ∧ twin.label = owner.label ∧ verify more checkDisjoint inspected twin = .ok next ∧
          (∀ step ∈ Run.errorSteps more checkDisjoint
            { owner := twin, proof := next.proof, inspection := inspectionOf next.proof inspected } next.proof,
            issue.step ≤ step) ∧
          ∀ other ∈ next.issues, issue.step ≤ other.step ∧ ¬ other.Suggests x y ∧ ¬ other.Suggests y x) ∧
      ∀ rest, (source :: rest).IsChain (Source.Amends owner.label) →
        rest.length ≤ source.variableNames.length.choose 2 := by
  have coherent := (Source.build_sound built).1
  refine ⟨?_, ?_, ?_⟩
  · intro further valid checked relaxed milder inspected
    obtain ⟨revise, extended⟩ := Source.extended built proved valid
    obtain ⟨run, relaxedRun, verified, relaxedVerified, rank, same⟩ := verify_relaxed coherent extended.coherent
      extended.revision proved extended.wider extended.proof extended.kept milder inspected
    exact ⟨_, revise owner, run, relaxedRun, extended.built, extended.proved proved, extended.wider.label,
      verified, relaxedVerified, rank, same⟩
  · intro checkDisjoint inspected run issue x y verified member suggests
    obtain ⟨u, v, revise, rfl, rfl, amended⟩ := Source.suggested built proved verified issue member x y suggests
    obtain ⟨next, nextVerified, late, others⟩ := amended.progress coherent proved verified issue member suggests.1
    have extended := amended.extended
    exact ⟨_, revise owner, next, extended.built, extended.proved proved, extended.wider.label, nextVerified,
      late, others⟩
  · intro rest followed
    have bounded := (amendments_bounded rest source t owner built proved followed).trans
      (unseparated_bound owner source.variableSymbols)
    simpa [Source.variableSymbols] using bounded

def looseSource : Source where
  name := "loose"
  constantNames := ["wff", "|-", "="]
  variableNames := ["x", "y", "z"]
  statements :=
    [{ label := "wx", kind := "floating", formula := "wff x" },
      { label := "wy", kind := "floating", formula := "wff y" },
      { label := "wz", kind := "floating", formula := "wff z" },
      { label := "rule", kind := "axiom", formula := "|- x = y = z", hypotheses := ["wx", "wy", "wz"],
        disjoint := [["x", "y", "z"]] },
      { label := "again", kind := "theorem", formula := "|- y = z = x", hypotheses := ["wx", "wy", "wz"],
        proof := "wy wz wx rule" }]

def looseTheorem : Statement := ((tableOf looseSource).statement 6).getD ⟨6, "", .constantList, [], {}, ""⟩

def looseIssue : Issue where
  rule := Rule.disjointViolation
  category := "proof"
  database := "loose"
  label := "again"
  step := 3
  applied := "rule"
  message := "step 3: \"rule\" requires x and y disjoint, so \"again\" must declare y and z disjoint"
  suggestion := "declare [y, z] under disjoint of again"
  severity := .error

theorem permissions_never_hurt_sample :
    looseSource.build = .ok (tableOf looseSource) ∧ looseTheorem ∈ (tableOf looseSource).theorems ∧
      looseIssue.Suggests "y" "z" ∧ (∀ group ∈ [["x", "y", "z"]], looseSource.Groups group) ∧
      ∃ run more twin next free freeTwin freeRun,
        verify (tableOf looseSource) true (-1) looseTheorem = .ok run ∧ looseIssue ∈ run.issues ∧
        (looseSource.keepApart "again" [["y", "z"]]).build = .ok more ∧ verify more true (-1) twin = .ok next ∧
        (∀ other ∈ next.issues, 3 ≤ other.step ∧ ¬ other.Suggests "y" "z") ∧
        (looseSource.keepApart "again" [["x", "y", "z"]]).build = .ok free ∧
        verify free true (-1) freeTwin = .ok freeRun ∧ freeRun.verdict.rank ≤ run.verdict.rank ∧
        ∀ rest, (looseSource :: rest).IsChain (Source.Amends "again") → rest.length ≤ 3 := by
  have proved : looseTheorem ∈ (tableOf looseSource).theorems := by decide
  have suggests : looseIssue.Suggests "y" "z" := ⟨rfl, rfl⟩
  have valid : ∀ group ∈ [["x", "y", "z"]], looseSource.Groups group := by
    intro group single
    obtain rfl := List.mem_singleton.mp single
    exact ⟨by decide, by decide⟩
  obtain ⟨permits, follows, ends⟩ :=
    permissions_never_hurt looseSource (tableOf looseSource) rfl looseTheorem proved
  obtain ⟨free, freeTwin, run, freeRun, freeBuilt, _, _, verified, freeVerified, rank, _⟩ :=
    permits [["x", "y", "z"]] valid true true id (-1)
  have found : (verify (tableOf looseSource) true (-1) looseTheorem).toOption.map Run.issues =
      some [looseIssue] := by decide
  rw [verified] at found
  have member : looseIssue ∈ run.issues := by
    rw [Option.some.inj found]
    exact List.mem_singleton_self _
  obtain ⟨more, twin, next, built, _, _, nextVerified, _, others⟩ :=
    follows true (-1) run looseIssue "y" "z" verified member suggests
  exact ⟨rfl, proved, suggests, valid, run, more, twin, next, free, freeTwin, freeRun, verified, member, built,
    nextVerified, fun other reported => ⟨(others other reported).1, (others other reported).2.1⟩, freeBuilt,
    freeVerified, rank, ends⟩

end Lemmata
