import Lemmata.Proofs.Exactness

/-!
Which hypothesis a mismatch blames. When no assignment turns all patterns into their instances, the
error is about the first pattern that cannot be matched together with those before it. The search that
finds it runs again on longer and longer fronts of the patterns, and it is exact on each of them.
-/

set_option autoImplicit false

namespace Lemmata

namespace Matching

def Matchable (t : Table) (pairs : List (Formula × Formula)) : Prop :=
  ∃ image : Symbol → Formula, (∀ v, t.isVariable v = true → image v ≠ []) ∧
    ∀ pair ∈ pairs, pair.1.instantiate t image = pair.2

variable {t : Table} {pairs : List (Formula × Formula)}

theorem matchable_nil : Matchable t [] :=
  ⟨fun v => [v], fun v _ => List.cons_ne_nil v [], by simp⟩

theorem instances_congr (image other : Symbol → Formula) (same : ∀ v ∈ varsOf t pairs, image v = other v)
    (instances : ∀ pair ∈ pairs, pair.1.instantiate t image = pair.2) :
    ∀ pair ∈ pairs, pair.1.instantiate t other = pair.2 := by
  intro pair member
  rw [← instances pair member]
  apply Formula.instantiate_congr
  intro v inside var
  exact (same v ((mem_vars_of v).mpr ⟨⟨pair, member, inside⟩, var⟩)).symm

theorem matchable_iff_solves : Matchable t pairs ↔ ∃ image, Solves t pairs image := by
  constructor
  · rintro ⟨image, filled, instances⟩
    refine ⟨fun v => if v ∈ varsOf t pairs then image v else [], fun v => ?_, ?_⟩
    · by_cases used : v ∈ varsOf t pairs
      · simpa [used] using filled v ((mem_vars_of v).mp used).2
      · simp [used]
    · exact instances_congr image _ (fun v used => (if_pos used).symm) instances
  · rintro ⟨image, solves⟩
    refine ⟨fun v => if v ∈ varsOf t pairs then image v else [v], fun v _ => ?_, ?_⟩
    · by_cases used : v ∈ varsOf t pairs
      · simpa [used] using (solves.assigned v).mpr used
      · simp [used]
    · exact instances_congr image _ (fun v used => (if_pos used).symm) solves.instances

theorem solve_found_iff (patternsFree : ∀ pair ∈ pairs, separator ∉ pair.1)
    (instancesFree : ∀ pair ∈ pairs, separator ∉ pair.2) (limit : Nat) (positive : 0 < limit) :
    (solve t limit (pairs.map Prod.fst) (pairs.map Prod.snd)).solutions ≠ [] ↔ Matchable t pairs := by
  obtain ⟨all, enumerates, found⟩ := solve_enumerated (t := t) patternsFree instancesFree limit positive
  have kept : (all.take limit).map (recorded t pairs) ≠ [] ↔ all ≠ [] := by
    simp [Nat.pos_iff_ne_zero.mp positive]
  rw [found, kept, matchable_iff_solves]
  constructor
  · intro filled
    obtain ⟨image, member⟩ := List.exists_mem_of_ne_nil all filled
    exact ⟨image, (enumerates.members image).mp member⟩
  · rintro ⟨image, solves⟩
    exact List.ne_nil_of_mem ((enumerates.members image).mpr solves)

end Matching

namespace Application

open Matching

variable {t : Table} {app : Application}

structure Plain (app : Application) : Prop where
  length : app.patterns.length = app.instances.length
  patterns : ∀ pattern ∈ app.patterns, separator ∉ pattern
  instances : ∀ operand ∈ app.instances, separator ∉ operand

theorem Plain.found_iff (plain : app.Plain) (limit : Nat) (positive : 0 < limit) (count : Nat) :
    (solve t limit (app.patterns.take count) (app.instances.take count)).solutions ≠ [] ↔
      Matchable t ((app.patterns.zip app.instances).take count) := by
  have kept : ∀ pair ∈ (app.patterns.zip app.instances).take count,
      pair.1 ∈ app.patterns ∧ pair.2 ∈ app.instances :=
    fun pair member => List.of_mem_zip (List.mem_of_mem_take member)
  rw [← solve_found_iff (fun pair member => plain.patterns pair.1 (kept pair member).1)
    (fun pair member => plain.instances pair.2 (kept pair member).2) limit positive, List.map_take,
    List.map_take, List.map_fst_zip (Nat.le_of_eq plain.length), List.map_snd_zip (Nat.le_of_eq plain.length.symm)]

theorem Plain.matches_first_iff (plain : app.Plain) (count : Nat) :
    app.matchesFirst t count = true ↔ Matchable t ((app.patterns.zip app.instances).take count) := by
  rw [← plain.found_iff 1 Nat.one_pos count]
  simp [matchesFirst]

-- The patterns before the position can be matched together, but not with the one at the position.
structure BlockedAt (t : Table) (app : Application) (index : Nat) : Prop where
  inside : index < app.patterns.length
  before : ∀ count ≤ index, Matchable t ((app.patterns.zip app.instances).take count)
  blocked : ¬ Matchable t ((app.patterns.zip app.instances).take (index + 1))

theorem Plain.culprit_blocked (plain : app.Plain)
    (unmatched : ¬ Matchable t (app.patterns.zip app.instances)) : app.BlockedAt t (app.culprit t) := by
  have front := fun count => plain.matches_first_iff (t := t) count
  unfold culprit
  cases found : (List.range app.patterns.length).find? fun index => !app.matchesFirst t (index + 1) with
  | none =>
      -- Every front can be matched, so the whole can, unless there is nothing to match.
      exfalso
      apply unmatched
      have whole : (app.patterns.zip app.instances).take app.patterns.length = app.patterns.zip app.instances :=
        List.take_of_length_le (by rw [List.length_zip]; exact Nat.min_le_left _ _)
      rw [← whole]
      cases size : app.patterns.length with
      | zero => exact matchable_nil
      | succ last =>
          have passed := List.find?_eq_none.mp found last (by simp [size])
          exact (front (last + 1)).mp (by simpa using passed)
  | some index =>
      obtain ⟨fails, inside, earlier⟩ := List.find?_range_eq_some.mp found
      refine ⟨List.mem_range.mp inside, fun count early => ?_, fun matched => ?_⟩
      · cases count with
        | zero => exact matchable_nil
        | succ last => exact (front (last + 1)).mp (by simpa using earlier last early)
      · have fine := (front (index + 1)).mpr matched
        simp [fine] at fails

theorem Plain.unify_unmatched (plain : app.Plain) (known : app.unknownOperand = false)
    (unmatched : ¬ Matchable t (app.patterns.zip app.instances)) (checkDisjoint : Bool) :
    (app.unify t checkDisjoint).error = some (app.mismatch t) := by
  have pairs : app.known = app.patterns.zip app.instances := by simp [Application.known, known]
  have unsolved : (solve t 2 (app.known.map Prod.fst) (app.known.map Prod.snd)).solutions = [] := by
    by_contra found
    refine unmatched ((solve_found_iff (fun pair member => ?_) (fun pair member => ?_) 2 (by decide)).mp
      (pairs ▸ found))
    · exact plain.patterns pair.1 (List.of_mem_zip member).1
    · exact plain.instances pair.2 (List.of_mem_zip member).2
  rw [(unify_none t app checkDisjoint unsolved).2, known]
  rfl

end Application

theorem mismatch_blames_first (t : Table) (app : Application) (plain : app.Plain)
    (known : app.unknownOperand = false)
    (unmatched : ¬ Matching.Matchable t (app.patterns.zip app.instances)) (checkDisjoint : Bool) :
    ∃ index pattern operand hypothesis, app.BlockedAt t index ∧
      app.patterns[index]? = some pattern ∧ app.instances[index]? = some operand ∧
      (app.unify t checkDisjoint).error = some (.mismatch app.step app.assertion.label hypothesis
        (t.render pattern) (t.render operand)) ∧
      (∀ id h, app.assertion.frame.required[index]? = some id → t.statement id = some h →
        hypothesis = h.label) ∧
      (app.assertion.frame.required.length ≤ index → hypothesis = "") := by
  have blocked := plain.culprit_blocked unmatched
  have nonempty : ¬ app.patterns.isEmpty = true := by
    intro nothing
    have inside := blocked.inside
    rw [List.isEmpty_iff.mp nothing] at inside
    cases inside
  have pattern := List.getElem?_eq_getElem blocked.inside
  have operand := List.getElem?_eq_getElem (plain.length ▸ blocked.inside)
  refine ⟨app.culprit t, _, _, (app.assertion.frame.required[app.culprit t]?.map t.labelOf).getD "",
    blocked, pattern, operand, ?_, ?_, ?_⟩
  · rw [plain.unify_unmatched known unmatched checkDisjoint, Application.mismatch, if_neg nonempty]
    simp only [pattern, operand, Option.getD_some]
  · intro id h required found
    simp only [required, Option.map_some, Option.getD_some, Table.labelOf, found]
  · intro missing
    rw [List.getElem?_eq_none missing]
    rfl

def sampleMismatch : Application where
  assertion := sampleStatement 6
  owner := sampleStatement 8
  step := 3
  patterns := [[0, 3], [0, 4], [1, 3]]
  instances := [[0, 4], [0, 3], [1, 3]]
  unknownOperand := false

theorem sample_unmatched :
    ¬ Matching.Matchable sampleTable (sampleMismatch.patterns.zip sampleMismatch.instances) := by
  rintro ⟨image, _, instances⟩
  have first : (0 : Symbol) :: (image 3 ++ []) = [0, 4] := instances ([0, 3], [0, 4]) (by decide)
  have third : (1 : Symbol) :: (image 3 ++ []) = [1, 3] := instances ([1, 3], [1, 3]) (by decide)
  have same := (List.cons.inj first).2.symm.trans (List.cons.inj third).2
  exact absurd same (by decide)

theorem mismatch_blames_first_sample :
    ¬ Matching.Matchable sampleTable (sampleMismatch.patterns.zip sampleMismatch.instances) ∧
      sampleMismatch.BlockedAt sampleTable 2 ∧
      (sampleMismatch.unify sampleTable true).error =
        some (.mismatch 3 "rule" "hx" "|- x" "|- x") := by
  obtain ⟨index, pattern, operand, hypothesis, blocked, found, _, error, _⟩ :=
    mismatch_blames_first sampleTable sampleMismatch ⟨rfl, by decide, by decide⟩ rfl sample_unmatched true
  have failed : (sampleMismatch.unify sampleTable true).error =
      some (.mismatch 3 "rule" "hx" "|- x" "|- x") := by decide
  refine ⟨sample_unmatched, ?_, failed⟩
  have text : sampleTable.render pattern = "|- x" := by
    rw [failed, Option.some.injEq, UnifyError.mismatch.injEq] at error
    exact error.2.2.2.1.symm
  have last : ∀ position < 3, ∀ own, sampleMismatch.patterns[position]? = some own →
      sampleTable.render own = "|- x" → position = 2 := by decide
  exact last index blocked.inside pattern found text ▸ blocked

end Lemmata
