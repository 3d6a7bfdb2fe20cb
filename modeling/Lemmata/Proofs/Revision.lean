import Lemmata.Proof.Decode
import Lemmata.Proofs.Coherence

/-!
Revising the statements of a table. A statement is found by its label or by its position, and what is
declared behind it, or proved with it, looks at its kind, its formula and its hypotheses. A table whose
statements are revised in other respects therefore checks declarations and reads proofs as before.
-/

set_option autoImplicit false

namespace Lemmata

-- A revision leaves alone what other statements and the readers of proofs look at.
structure Statement.Revision (revise : Statement → Statement) : Prop where
  id : ∀ s, (revise s).id = s.id
  label : ∀ s, (revise s).label = s.label
  kind : ∀ s, (revise s).kind = s.kind
  formula : ∀ s, (revise s).formula = s.formula
  required : ∀ s, (revise s).frame.required = s.frame.required
  optional : ∀ s, (revise s).frame.optional = s.frame.optional

namespace Statement.Revision

variable {revise : Statement → Statement} (revision : Revision revise) (s : Statement)

include revision

theorem isHypothesis : (revise s).isHypothesis = s.isHypothesis := by
  rw [Statement.isHypothesis, Statement.isHypothesis, revision.kind]

theorem isAssertion : (revise s).isAssertion = s.isAssertion := by
  rw [Statement.isAssertion, Statement.isAssertion, revision.kind]

theorem contains : (revise s).frame.contains = s.frame.contains := by
  funext id
  simp only [Frame.contains, Frame.index_of_is_some, revision.required, revision.optional]

end Statement.Revision

namespace Table

def revised (t : Table) (revise : Statement → Statement) : Table :=
  { t with statements := t.statements.map revise }

variable (t : Table) {revise : Statement → Statement}

theorem statement_revised (id : Int) : (t.revised revise).statement id = (t.statement id).map revise := by
  simp only [statement, revised, List.getElem?_map]
  split <;> rfl

theorem push_revised (label : String) (kind : Kind) (formula : Formula) (frame newFrame : Frame)
    (proof newProof : String)
    (made : revise ⟨t.statements.length, label, kind, formula, frame, proof⟩ =
      ⟨t.statements.length, label, kind, formula, newFrame, newProof⟩) :
    (t.push label kind formula frame proof).revised revise =
      (t.revised revise).push label kind formula newFrame newProof := by
  simp [push, revised, made]

section Declaring

variable (revision : Statement.Revision revise)

include revision

theorem theorems_revised : (t.revised revise).theorems = t.theorems.map revise := by
  simp only [theorems, revised, List.filter_map, Function.comp_def, revision.kind]

theorem lookup_revised (label : String) : (t.revised revise).lookup label = (t.lookup label).map revise := by
  simp only [lookup, revised, List.find?_map, Function.comp_def, revision.label]
  split <;> rfl

theorem label_of_revised (id : Int) : (t.revised revise).labelOf id = t.labelOf id := by
  rw [labelOf, statement_revised, labelOf]
  cases t.statement id with
  | none => rfl
  | some s => exact revision.label s

theorem formula_of_revised (id : Int) : (t.revised revise).formulaOf id = t.formulaOf id := by
  rw [formulaOf, statement_revised, formulaOf]
  cases t.statement id with
  | none => rfl
  | some s => exact revision.formula s

theorem check_label_revised (label : String) : (t.revised revise).checkLabel label = t.checkLabel label := by
  have named : (t.revised revise).symbol label = t.symbol label := rfl
  simp only [checkLabel, t.lookup_revised revision, Option.isSome_map, named]

theorem hypothesis_revised (label name : String) :
    (t.revised revise).hypothesis label name = (t.hypothesis label name).map revise := by
  simp only [hypothesis, t.lookup_revised revision]
  cases t.lookup name with
  | none => rfl
  | some h =>
      simp only [Option.map_some, revision.isHypothesis]
      cases h.isHypothesis <;> rfl

theorem required_revised (label : String) (names : List String) (vars : List Symbol) :
    (t.revised revise).requiredHypotheses label names vars = t.requiredHypotheses label names vars := by
  induction names generalizing vars with
  | nil => rfl
  | cons name rest ih =>
      simp only [requiredHypotheses, t.hypothesis_revised revision, ih]
      cases t.hypothesis label name with
      | error cause => rfl
      | ok h =>
          have typed : (revise h).typedVariable = h.typedVariable := by
            simp only [Statement.typedVariable, revision.kind, revision.formula]
          simp only [Except.map, bind, Except.bind, typed, revision.id]
          rfl

theorem optional_revised (label : String) (required : List Int) (names : List String) :
    (t.revised revise).optionalHypotheses label required names =
      t.optionalHypotheses label required names := by
  induction names with
  | nil => rfl
  | cons name rest ih =>
      simp only [optionalHypotheses, t.hypothesis_revised revision, ih]
      cases t.hypothesis label name with
      | error cause => rfl
      | ok h => simp only [Except.map, bind, Except.bind, revision.id]

theorem scope_revised (formula : Formula) (required : List Int) :
    (t.revised revise).scopeOf formula required = t.scopeOf formula required := by
  simp only [scopeOf, statement_revised]
  congr 2
  funext id
  cases t.statement id with
  | none => rfl
  | some h => simp only [Option.map_some, revision.kind, revision.formula]

theorem frame_revised (label : String) (formula : Formula) (dependencies : Dependencies) :
    (t.revised revise).frameOf label formula dependencies = t.frameOf label formula dependencies := by
  have checked : (t.revised revise).checkTyped label = t.checkTyped label := rfl
  have grouped : (t.revised revise).groupPairs label = t.groupPairs label := rfl
  simp only [frameOf, t.required_revised revision, t.optional_revised revision, t.scope_revised revision, checked,
    grouped]

theorem declare_revised (declaration : Declaration) (next : Table) (accepted : t.declare declaration = .ok next)
    (fixed : ∀ s, next.statements = t.statements ++ [s] → revise s = s) :
    (t.revised revise).declare declaration = .ok (next.revised revise) := by
  have label := t.check_label_revised revision
  have parsed : (t.revised revise).checkFormula = t.checkFormula := rfl
  have framed : (t.revised revise).frameOf = t.frameOf := by
    funext label formula dependencies
    exact t.frame_revised revision label formula dependencies
  have pushed : ∀ label kind formula frame proof, t.push label kind formula frame proof = next →
      next.revised revise = (t.revised revise).push label kind formula frame proof := by
    rintro label kind formula frame proof rfl
    exact t.push_revised label kind formula frame frame proof proof (fixed _ rfl)
  cases declaration with
  | constantList names =>
      simp only [declare, declareSymbols, bind_ok, pure_ok] at accepted ⊢
      obtain ⟨symbols, added, rfl⟩ := accepted
      exact ⟨symbols, added, (({ t with symbols } : Table).push_revised _ _ _ _ _ _ _ (fixed _ rfl)).symm⟩
  | variableList names =>
      simp only [declare, declareSymbols, bind_ok, pure_ok] at accepted ⊢
      obtain ⟨symbols, added, rfl⟩ := accepted
      exact ⟨symbols, added, (({ t with symbols } : Table).push_revised _ _ _ _ _ _ _ (fixed _ rfl)).symm⟩
  | floating own text =>
      simp only [declare, bind_ok, label, parsed] at accepted ⊢
      obtain ⟨checked, clear, formula, read, accepted⟩ := accepted
      refine ⟨checked, clear, formula, read, ?_⟩
      split at accepted
      · rename_i typecode v
        split at accepted
        · rename_i var
          rw [pushed _ _ _ _ _ (Except.ok.inj accepted)]
          exact if_pos var
        · cases accepted
      · cases accepted
  | essential own text =>
      simp only [declare, bind_ok, pure_ok, label, parsed] at accepted ⊢
      obtain ⟨checked, clear, formula, read, made⟩ := accepted
      exact ⟨checked, clear, formula, read, (pushed _ _ _ _ _ made).symm⟩
  | assumed own text dependencies =>
      simp only [declare, declareAssertion, bind_ok, pure_ok, label, parsed, framed] at accepted ⊢
      obtain ⟨checked, clear, formula, read, frame, fits, made⟩ := accepted
      exact ⟨checked, clear, formula, read, frame, fits, (pushed _ _ _ _ _ made).symm⟩
  | proved own text dependencies proof =>
      simp only [declare, declareAssertion, bind_ok, pure_ok, label, parsed, framed] at accepted ⊢
      obtain ⟨checked, clear, formula, read, frame, fits, made⟩ := accepted
      exact ⟨checked, clear, formula, read, frame, fits, (pushed _ _ _ _ _ made).symm⟩

end Declaring

end Table

namespace Proof

variable (t : Table) (owner : Statement) {revise : Statement → Statement}
  (revision : Statement.Revision revise)

include revision

theorem resolve_revised : resolve (t.revised revise) (revise owner) = resolve t owner := by
  funext word
  simp only [resolve, t.lookup_revised revision]
  cases t.lookup word.name with
  | none => simp only [Option.map_none, failAt, revision.label]
  | some s =>
      simp only [Option.map_some, failAt, revision.id, revision.label, revision.isHypothesis,
        revision.isAssertion, revision.contains]

theorem decode_revised (text : String) : decode (t.revised revise) (revise owner) text = decode t owner text := by
  have failed : ∀ {α : Type}, @failAt α (revise owner) = failAt owner := by
    intro α
    funext offset cause
    simp only [failAt, revision.label]
  have word : decodeWord (t.revised revise) (revise owner) = decodeWord t owner := by
    funext word
    simp only [decodeWord, resolve_revised t owner revision]
  have label : listedLabel (t.revised revise) (revise owner) = listedLabel t owner := by
    funext word
    simp only [listedLabel, resolve_revised t owner revision, failed, revision.required]
  simp only [decode, decodePlain, decodeCompressed, word, label, failed, revision.required]

end Proof

end Lemmata
