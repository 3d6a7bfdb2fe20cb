import Lemmata.Proofs.DeclarationOrder
import Lemmata.Proofs.Progress
import Lemmata.Proofs.SharedSymbols

/-!
What is declared behind a theorem does not matter to it. Two tables that agree up to a theorem give
it the same outcome: the same steps, counts and verdict, and the same issues apart from their texts
and the name of the database.
-/

set_option autoImplicit false

namespace Lemmata

open Text

-- The tables have the same statements up to position `limit`, and what these statements declare has
-- the same name and kind.
structure Table.AgreesUpTo (t other : Table) (limit : Int) : Prop where
  statements : ∀ id ≤ limit, t.statement id = other.statement id
  symbols : ∀ x, t.DeclaredBy limit x → t.symbolInfo x = other.symbolInfo x

def Issue.outline (issue : Issue) : Issue := { issue with database := "", message := "" }

namespace Run

def outline (run : Run) : Run :=
  { run with issues := run.issues.map Issue.outline, reported := run.reported.map Issue.outline }

theorem outline_same (run twin : Run) :
    run.outline = twin.outline ↔
      run.owner = twin.owner ∧ run.proof = twin.proof ∧ run.formulas = twin.formulas ∧
      run.stack = twin.stack ∧ run.verdict = twin.verdict ∧
      run.issues.map Issue.outline = twin.issues.map Issue.outline ∧
      run.reported.map Issue.outline = twin.reported.map Issue.outline ∧
      run.errorCount = twin.errorCount ∧ run.unifications = twin.unifications ∧
      run.backtracks = twin.backtracks ∧ run.inspection = twin.inspection := by
  simp only [outline, Run.mk.injEq]

theorem fail_outline (t : Table) (run : Run) (rule : String) (step : Nat)
    (applied message suggestion : String) :
    (run.fail t rule step applied message suggestion).outline =
      run.outline.fail { name := "" } rule step applied "" suggestion := by
  by_cases first : 0 < run.errorCount
  · rw [fail, fail, if_pos first, if_pos (show 0 < run.outline.errorCount from first)]
    rfl
  · rw [fail, fail, if_neg first, if_neg (show ¬ 0 < run.outline.errorCount from first)]
    simp [report, outline, Issue.outline]

-- The two runs have come to the same point, on formulas of which the two tables tell the same.
structure Alike (t other : Table) (run twin : Run) : Prop where
  outline : run.outline = twin.outline
  shared : ∀ formula ∈ run.formulas, formula.Shared t other

end Run

section Agreement

variable {t other : Table} {limit : Int}

theorem Table.AgreesUpTo.formula_shared (agrees : t.AgreesUpTo other limit) (ordered : t.Ordered)
    (s : Statement) (member : s ∈ t.statements) (early : s.id ≤ limit) : s.formula.Shared t other :=
  fun x present => agrees.symbols x ((ordered.used s member x present).mono early)

theorem Table.statements_agree (t other : Table) (last : Nat)
    (same : ∀ position ≤ last, t.statements[position]? = other.statements[position]?) (id : Int)
    (early : id ≤ last) : t.statement id = other.statement id := by
  by_cases negative : id < 0
  · rw [Table.statement, Table.statement, if_pos negative, if_pos negative]
  · rw [Table.statement, Table.statement, if_neg negative, if_neg negative, same id.toNat (by omega)]

theorem Table.AgreesUpTo.declared (agrees : t.AgreesUpTo other limit) (coherent : other.Coherent)
    (x : Symbol) (declared : other.DeclaredBy limit x) : t.DeclaredBy limit x := by
  obtain ⟨s, member, early, rest⟩ := declared
  have placed := (agrees.statements s.id early).trans (coherent.statement_of_member s member)
  exact ⟨s, t.member_of_statement s.id s placed, early, rest⟩

theorem Table.AgreesUpTo.symm (agrees : t.AgreesUpTo other limit) (coherent : other.Coherent) :
    other.AgreesUpTo t limit :=
  ⟨fun id early => (agrees.statements id early).symm,
    fun x declared => (agrees.symbols x (agrees.declared coherent x declared)).symm⟩

theorem Table.AgreesUpTo.required_same (agrees : t.AgreesUpTo other limit) (coherent : t.Coherent)
    (assertion : Statement) (member : assertion ∈ t.statements) (asserted : assertion.isAssertion = true)
    (early : assertion.id ≤ limit) (id : Int) (needed : id ∈ assertion.frame.required) :
    t.statement id = other.statement id := by
  obtain ⟨_, _, _, before⟩ := (coherent.framed member asserted).required id needed
  exact agrees.statements id (by omega)

namespace Run

variable {owner : Statement} {checkDisjoint : Bool} {run twin : Run}

theorem push_alike (base twinBase : Run) (formula : Formula) (alike : run.Alike t other twin)
    (formulas : base.formulas = run.formulas) (same : base.outline = twinBase.outline)
    (shared : formula.Shared t other) : (base.push formula).Alike t other (twinBase.push formula) := by
  refine ⟨congrArg (fun start => Run.push start formula) same, ?_⟩
  intro present member
  simp only [push, formulas, List.mem_append, List.mem_singleton] at member
  rcases member with old | rfl
  · exact alike.shared present old
  · exact shared

theorem application_alike (agrees : t.AgreesUpTo other limit) (coherent : t.Coherent)
    (assertion : Statement) (member : assertion ∈ t.statements) (asserted : assertion.isAssertion = true)
    (early : assertion.id ≤ limit) (operands : List Nat) (alike : run.Alike t other twin) :
    twin.applicationOf other assertion operands = run.applicationOf t assertion operands := by
  obtain ⟨owner, _, formulas, _⟩ := (outline_same run twin).mp alike.outline
  have required := agrees.required_same coherent assertion member asserted early
  have patterns : assertion.frame.required.map other.formulaOf = assertion.frame.required.map t.formulaOf :=
    List.map_congr_left fun id needed => by simp only [Table.formulaOf, required id needed]
  have instances : twin.formulaAt = run.formulaAt := by
    funext step
    simp only [formulaAt, formulas]
  simp only [applicationOf, patterns, instances, owner, formulas]

theorem inspect_alike (agrees : t.AgreesUpTo other limit) (coherent : t.Coherent)
    (assertion : Statement) (member : assertion ∈ t.statements) (asserted : assertion.isAssertion = true)
    (early : assertion.id ≤ limit) (step : Nat) (operands : List Nat) (subst : Substitution) :
    inspect other step assertion operands subst = inspect t step assertion operands subst := by
  funext inspection
  have required := agrees.required_same coherent assertion member asserted early
  have labels : assertion.frame.required.map other.labelOf = assertion.frame.required.map t.labelOf :=
    List.map_congr_left fun id needed => by simp only [Table.labelOf, required id needed]
  simp only [inspect, labels]

theorem unify_alike (checkDisjoint : Bool) (agrees : t.AgreesUpTo other limit) (coherent : t.Coherent)
    (ordered : t.Ordered) (assertion : Statement) (member : assertion ∈ t.statements)
    (asserted : assertion.isAssertion = true)
    (early : assertion.id ≤ limit) (operands : List Nat)
    (bounded : ∀ operand ∈ operands, operand < run.formulas.length) (alike : run.Alike t other twin) :
    ((run.applicationOf t assertion operands).unify t checkDisjoint).Alike
      ((run.applicationOf t assertion operands).unify other checkDisjoint) := by
  apply Application.unify_shared
  · intro pattern present
    obtain ⟨id, needed, rfl⟩ := List.mem_map.mp present
    obtain ⟨h, found, _, before⟩ := (coherent.framed member asserted).required id needed
    rw [t.formula_of_statement id h found]
    have position := coherent.statement_id id h found
    exact agrees.formula_shared ordered h (t.member_of_statement id h found) (by omega)
  · exact agrees.formula_shared ordered assertion member early
  · intro operand present
    obtain ⟨step, inside, rfl⟩ := List.mem_map.mp present
    exact alike.shared _ (run.formula_at_mem step (bounded step inside))

theorem unified_shared (checkDisjoint : Bool) (agrees : t.AgreesUpTo other limit) (ordered : t.Ordered)
    (assertion : Statement) (member : assertion ∈ t.statements) (early : assertion.id ≤ limit)
    (operands : List Nat)
    (bounded : ∀ operand ∈ operands, operand < run.formulas.length) (alike : run.Alike t other twin) :
    ((run.applicationOf t assertion operands).unify t checkDisjoint).formula.Shared t other := by
  intro x present
  rcases Application.unify_symbols x present with ⟨own, _⟩ | ⟨operand, inside, used⟩
  · exact agrees.formula_shared ordered assertion member early x own
  · obtain ⟨step, taken, rfl⟩ := List.mem_map.mp inside
    exact alike.shared _ (run.formula_at_mem step (bounded step taken)) x used

theorem restack_outline (stack : List Nat) (same : run.outline = twin.outline) :
    { run with stack := stack }.outline = { twin with stack := stack }.outline :=
  congrArg (fun start : Run => { start with stack := stack }) same

theorem open_outline (same : run.outline = twin.outline) :
    { run with verdict := run.verdict.worse .incomplete }.outline =
      { twin with verdict := twin.verdict.worse .incomplete }.outline :=
  congrArg (fun start : Run => { start with verdict := start.verdict.worse .incomplete }) same

theorem counted_outline (found : Nat) (note : Inspection → Inspection) (same : run.outline = twin.outline) :
    { run with
      unifications := run.unifications + 1
      backtracks := run.backtracks + found
      inspection := run.inspection.map note }.outline =
    { twin with
      unifications := twin.unifications + 1
      backtracks := twin.backtracks + found
      inspection := twin.inspection.map note }.outline :=
  congrArg (fun start : Run => { start with
    unifications := start.unifications + 1
    backtracks := start.backtracks + found
    inspection := start.inspection.map note }) same

theorem apply_to_alike (agrees : t.AgreesUpTo other limit) (coherent : t.Coherent) (ordered : t.Ordered)
    (assertion : Statement) (member : assertion ∈ t.statements) (asserted : assertion.isAssertion = true)
    (early : assertion.id ≤ limit) (operands : List Nat)
    (bounded : ∀ operand ∈ operands, operand < run.formulas.length) (alike : run.Alike t other twin) :
    (run.applyTo t checkDisjoint assertion operands).Alike t other
      (twin.applyTo other checkDisjoint assertion operands) := by
  have unified := unify_alike checkDisjoint agrees coherent ordered assertion member asserted early operands
    bounded alike
  have shared := unified_shared checkDisjoint agrees ordered assertion member early operands bounded alike
  have length : twin.formulas.length = run.formulas.length := by
    rw [((outline_same run twin).mp alike.outline).2.2.1]
  simp only [applyTo, application_alike agrees coherent assertion member asserted early operands alike,
    inspect_alike agrees coherent assertion member asserted early, length]
  revert unified shared
  generalize (run.applicationOf t assertion operands).unify t checkDisjoint = own
  generalize (run.applicationOf t assertion operands).unify other checkDisjoint = foreign
  intro unified shared
  have counted := counted_outline own.backtracks (inspect t run.formulas.length assertion operands own.subst)
    alike.outline
  have errors := unified.error
  rw [← unified.backtracks, ← unified.subst, ← unified.formula]
  cases ownError : own.error with
  | none =>
      cases foreignError : foreign.error with
      | none => exact push_alike _ _ _ alike rfl counted shared
      | some second => simp [ownError, foreignError] at errors
  | some error =>
      cases foreignError : foreign.error with
      | none => simp [ownError, foreignError] at errors
      | some second =>
          simp only [ownError, foreignError, Option.map_some, Option.some.injEq, UnifyError.advice,
            Prod.mk.injEq] at errors
          refine push_alike _ _ _ alike (by simp) ?_ (fun x present => by cases present)
          rw [fail_outline, fail_outline, counted, errors.1, errors.2]

theorem apply_assertion_alike (agrees : t.AgreesUpTo other limit) (coherent : t.Coherent)
    (ordered : t.Ordered) (assertion : Statement) (member : assertion ∈ t.statements)
    (asserted : assertion.isAssertion = true) (early : assertion.id ≤ limit)
    (stacked : ∀ step ∈ run.stack, step < run.formulas.length) (alike : run.Alike t other twin) :
    (run.applyAssertion t checkDisjoint assertion).Alike t other
      (twin.applyAssertion other checkDisjoint assertion) := by
  obtain ⟨_, _, formulas, stack, _⟩ := (outline_same run twin).mp alike.outline
  by_cases missing : run.stack.length < assertion.frame.required.length
  · rw [applyAssertion, applyAssertion, if_pos missing, if_pos (stack ▸ missing)]
    refine push_alike _ _ _ alike (by simp) ?_ (fun x present => by cases present)
    apply restack_outline
    rw [fail_outline, fail_outline, alike.outline, formulas]
  · rw [applyAssertion, applyAssertion, if_neg missing, if_neg (stack ▸ missing), ← stack]
    refine apply_to_alike agrees coherent ordered assertion member asserted early _ ?_
      ⟨restack_outline _ alike.outline, alike.shared⟩
    intro operand present
    exact stacked operand (List.mem_of_mem_take (List.mem_reverse.mp present))

theorem step_alike (agrees : t.AgreesUpTo other owner.id) (coherent : t.Coherent) (ordered : t.Ordered)
    (framed : owner.Framed t) (instruction : Instruction) (next : Run)
    (admissible : instruction.Admissible t owner run.formulas.length)
    (stacked : ∀ step ∈ run.stack, step < run.formulas.length) (alike : run.Alike t other twin)
    (stepped : run.step t checkDisjoint instruction = .ok next) :
    ∃ twinNext, twin.step other checkDisjoint instruction = .ok twinNext ∧ next.Alike t other twinNext := by
  obtain ⟨_, _, formulas, _⟩ := (outline_same run twin).mp alike.outline
  cases instruction with
  | unknown =>
      cases stepped
      exact ⟨_, rfl,
        push_alike _ _ _ alike rfl (open_outline alike.outline) fun x present => by cases present⟩
  | reuse target =>
      have bounds : 0 ≤ target ∧ target < run.formulas.length := admissible
      simp only [step, if_pos bounds] at stepped
      cases stepped
      have twinBounds : 0 ≤ target ∧ target < twin.formulas.length := formulas ▸ bounds
      have same : twin.formulaAt target.toNat = run.formulaAt target.toNat := by
        simp only [formulaAt, formulas]
      simp only [step, if_pos twinBounds, same]
      refine ⟨_, rfl, push_alike run twin _ alike rfl alike.outline ?_⟩
      exact alike.shared _ (run.formula_at_mem target.toNat (by omega))
  | reference id =>
      obtain ⟨s, found, usable⟩ := admissible
      have early : id ≤ owner.id := by
        rcases usable with ⟨_, before⟩ | ⟨_, inside⟩
        · omega
        · obtain ⟨_, _, _, before⟩ := framed.usable id (by simpa [Frame.contains] using inside)
          omega
      have member := t.member_of_statement id s found
      have position := coherent.statement_id id s found
      have twinFound : other.statement id = some s := (agrees.statements id early).symm.trans found
      simp only [step, found] at stepped
      simp only [step, twinFound]
      by_cases hypothesis : s.isHypothesis = true
      · rw [if_pos hypothesis] at stepped ⊢
        cases stepped
        exact ⟨_, rfl, push_alike run twin _ alike rfl alike.outline
          (agrees.formula_shared ordered s member (by omega))⟩
      · rw [if_neg hypothesis] at stepped ⊢
        have asserted : s.isAssertion = true := (usable.resolve_right fun own => hypothesis own.1).1
        rw [if_pos asserted] at stepped ⊢
        cases stepped
        exact ⟨_, rfl,
          apply_assertion_alike agrees coherent ordered s member asserted (by omega) stacked alike⟩
  | invalid kind => exact False.elim admissible

theorem run_alike (agrees : t.AgreesUpTo other owner.id) (coherent : t.Coherent) (ordered : t.Ordered)
    (framed : owner.Framed t) (proof : Proof) (run twin final : Run)
    (admissible : proof.EachFrom (Instruction.Admissible t owner) run.formulas.length)
    (sane : run.Sane t) (alike : run.Alike t other twin)
    (finished : proof.foldlM (step t checkDisjoint) run = .ok final) :
    ∃ twinFinal, proof.foldlM (step other checkDisjoint) twin = .ok twinFinal ∧
      final.Alike t other twinFinal := by
  induction proof generalizing run twin with
  | nil =>
      cases finished
      exact ⟨twin, rfl, alike⟩
  | cons instruction rest ih =>
      rw [List.foldlM_cons, bind_ok] at finished
      obtain ⟨next, stepped, others⟩ := finished
      have length := step_length t checkDisjoint run next instruction stepped
      obtain ⟨twinNext, twinStepped, nextAlike⟩ :=
        step_alike agrees coherent ordered framed instruction next admissible.1 sane.stack alike stepped
      obtain ⟨twinFinal, twinFinished, finalAlike⟩ :=
        ih next twinNext (length ▸ admissible.2) (step_sane coherent sane stepped) nextAlike others
      refine ⟨twinFinal, ?_, finalAlike⟩
      rw [List.foldlM_cons, twinStepped]
      exact twinFinished

theorem finish_outline (same : run.outline = twin.outline) :
    (run.finish t).outline = (twin.finish other).outline := by
  obtain ⟨owner, proof, formulas, _⟩ := (outline_same run twin).mp same
  have last : twin.formulas.getLast?.getD [] = run.formulas.getLast?.getD [] := by rw [formulas]
  have length : twin.proof.length - 1 = run.proof.length - 1 := by rw [proof]
  simp only [finish, last, length, ← congrArg Statement.formula owner]
  by_cases unknown : (run.formulas.getLast?.getD []).isUnknown = true
  · rw [if_pos unknown, if_pos unknown]
    exact open_outline same
  · rw [if_neg unknown, if_neg unknown]
    by_cases proved : run.formulas.getLast?.getD [] = run.owner.formula
    · rw [if_pos proved, if_pos proved, same]
    · rw [if_neg proved, if_neg proved, fail_outline, fail_outline, same]

end Run

end Agreement

section Decoding

def DecodeError.place (error : DecodeError) : String × Nat := (error.label, error.offset)

variable {t other : Table} {owner : Statement}

theorem map_error_bind {ε φ α β : Type} (view : ε → φ) (x : Except ε α) (f : α → Except ε β) :
    (x >>= f).mapError view = x.mapError view >>= fun value => (f value).mapError view := by
  cases x <;> rfl

theorem map_m_error_congr {ε φ α β : Type} (view : ε → φ) (f g : α → Except ε β) (inputs : List α)
    (same : ∀ input, (f input).mapError view = (g input).mapError view) :
    (inputs.mapM f).mapError view = (inputs.mapM g).mapError view := by
  induction inputs with
  | nil => rfl
  | cons input rest ih => simp only [List.mapM_cons, map_error_bind, same input, ih]

theorem lookup_agrees (agrees : t.AgreesUpTo other owner.id) (coherent : t.Coherent)
    (otherCoherent : other.Coherent) (name : String) (s : Statement) (found : t.lookup name = some s)
    (early : s.id < owner.id) : other.lookup name = some s := by
  obtain ⟨member, label, nonempty⟩ := t.lookup_some name s found
  have placed := (agrees.statements s.id (by omega)).symm.trans (coherent.statement_of_member s member)
  rw [← label]
  exact otherCoherent.lookup_label s (other.member_of_statement s.id s placed) (label ▸ nonempty)

namespace Proof

theorem resolve_place (agrees : t.AgreesUpTo other owner.id) (coherent : t.Coherent)
    (otherCoherent : other.Coherent) (word : Word) :
    (resolve t owner word).mapError DecodeError.place =
      (resolve other owner word).mapError DecodeError.place := by
  have late : ∀ (table : Table), (∀ s, table.lookup word.name = some s → owner.id ≤ s.id) →
      (resolve table owner word).mapError DecodeError.place = .error (owner.label, word.offset) := by
    intro table behind
    cases found : table.lookup word.name with
    | none => simp only [resolve, found, failAt, Except.mapError, DecodeError.place]
    | some s =>
        simp only [resolve, found, if_pos (behind s found), failAt, Except.mapError, DecodeError.place]
  by_cases early : ∃ s, t.lookup word.name = some s ∧ s.id < owner.id
  · obtain ⟨s, found, before⟩ := early
    simp only [resolve, found, lookup_agrees agrees coherent otherCoherent word.name s found before]
  · rw [late t, late other]
    · intro s found
      by_contra before
      have here :=
        lookup_agrees (agrees.symm otherCoherent) otherCoherent coherent word.name s found (by omega)
      exact early ⟨s, here, by omega⟩
    · intro s found
      by_contra before
      exact early ⟨s, found, by omega⟩

theorem decode_word_place (agrees : t.AgreesUpTo other owner.id) (coherent : t.Coherent)
    (otherCoherent : other.Coherent) (word : Word) :
    (decodeWord t owner word).mapError DecodeError.place =
      (decodeWord other owner word).mapError DecodeError.place := by
  by_cases unknown : word.chars = ['?']
  · rw [decodeWord, decodeWord, if_pos unknown, if_pos unknown]
  · rw [decodeWord, decodeWord, if_neg unknown, if_neg unknown, map_error_bind, map_error_bind,
      resolve_place agrees coherent otherCoherent word]

theorem listed_label_place (agrees : t.AgreesUpTo other owner.id) (coherent : t.Coherent)
    (otherCoherent : other.Coherent) (word : Word) :
    (listedLabel t owner word).mapError DecodeError.place =
      (listedLabel other owner word).mapError DecodeError.place := by
  by_cases opening : word.chars.contains '(' = true
  · rw [listedLabel, listedLabel, if_pos opening, if_pos opening]
  · rw [listedLabel, listedLabel, if_neg opening, if_neg opening, map_error_bind, map_error_bind,
      resolve_place agrees coherent otherCoherent word]

theorem decode_place (agrees : t.AgreesUpTo other owner.id) (coherent : t.Coherent)
    (otherCoherent : other.Coherent) (text : String) :
    (decode t owner text).mapError DecodeError.place =
      (decode other owner text).mapError DecodeError.place := by
  have plain : (decodePlain t owner text.toList).mapError DecodeError.place =
      (decodePlain other owner text.toList).mapError DecodeError.place := by
    have found := map_m_error_congr DecodeError.place _ _ (words 0 text.toList)
      (decode_word_place agrees coherent otherCoherent)
    unfold decodePlain
    split
    · rfl
    · exact found
  have compressed : ∀ opening chars,
      (decodeCompressed t owner opening chars).mapError DecodeError.place =
        (decodeCompressed other owner opening chars).mapError DecodeError.place := by
    intro opening chars
    have labels := map_m_error_congr DecodeError.place _ _ (words (opening + 1) (chars.takeWhile (· != ')')))
      (listed_label_place agrees coherent otherCoherent)
    simp only [decodeCompressed, map_error_bind, labels]
  unfold decode
  dsimp only
  split
  · exact compressed _ _
  · exact plain

end Proof

end Decoding

section Verification

variable {t other : Table} {owner : Statement}

theorem verify_alike (agrees : t.AgreesUpTo other owner.id) (coherent : t.Coherent) (ordered : t.Ordered)
    (otherCoherent : other.Coherent) (proved : owner ∈ t.theorems) (checkDisjoint : Bool) (inspected : Int) :
    ∃ run twin, verify t checkDisjoint inspected owner = .ok run ∧
      verify other checkDisjoint inspected owner = .ok twin ∧ run.outline = twin.outline := by
  obtain ⟨member, asserted⟩ := t.theorem_asserted owner proved
  have kind := t.theorem_kind owner proved
  have decoded := Proof.decode_place agrees coherent otherCoherent owner.proof
  simp only [verify, kind, ne_eq, not_true_eq_false, if_false]
  cases own : Proof.decode t owner owner.proof with
  | error error =>
      cases foreign : Proof.decode other owner owner.proof with
      | error second =>
          simp only [own, foreign, Except.mapError, Except.error.injEq, DecodeError.place,
            Prod.mk.injEq] at decoded
          refine ⟨_, _, rfl, rfl, ?_⟩
          simp [Run.outline, unreadable, Run.report, Issue.outline, decoded.2]
      | ok proof => simp [own, foreign, Except.mapError] at decoded
  | ok proof =>
      cases foreign : Proof.decode other owner owner.proof with
      | error second => simp [own, foreign, Except.mapError] at decoded
      | ok second =>
          simp only [own, foreign, Except.mapError, Except.ok.injEq] at decoded
          subst decoded
          have admissible := Proof.decode_admissible t coherent owner member asserted _ proof own
          have nonempty := Proof.decode_nonempty t owner _ proof own
          let start : Run := { owner, proof, inspection := inspectionOf proof inspected }
          obtain ⟨final, finished⟩ := Run.run_progress checkDisjoint owner proof start admissible
          obtain ⟨twin, twinFinished, alike⟩ := Run.run_alike agrees coherent ordered
            (coherent.framed member asserted) proof start start final admissible
            ⟨by simp [start], by simp [start], by simp [start]⟩ ⟨rfl, by simp [start]⟩ finished
          refine ⟨final.finish t, twin.finish other, ?_, ?_, Run.finish_outline alike.outline⟩
          · exact (verify_proof_ok t _ _ _ _ _).mpr ⟨nonempty, final, finished, rfl⟩
          · exact (verify_proof_ok other _ _ _ _ _).mpr ⟨nonempty, twin, twinFinished, rfl⟩

theorem verify_local (name otherName : String) (declarations otherDeclarations : List Declaration)
    (built : Table.build name declarations = .ok t)
    (otherBuilt : Table.build otherName otherDeclarations = .ok other) (proved : owner ∈ t.theorems)
    (agrees : t.AgreesUpTo other owner.id) (checkDisjoint : Bool) (inspected : Int) :
    ∃ run twin, verify t checkDisjoint inspected owner = .ok run ∧
      verify other checkDisjoint inspected owner = .ok twin ∧
      run.verdict = twin.verdict ∧ run.proof = twin.proof ∧ run.formulas = twin.formulas ∧
      run.errorCount = twin.errorCount ∧ run.unifications = twin.unifications ∧
      run.issues.map Issue.outline = twin.issues.map Issue.outline := by
  have coherent := Table.build_coherent name declarations t built
  have ordered := Table.build_ordered name declarations t built
  have otherCoherent := Table.build_coherent otherName otherDeclarations other otherBuilt
  obtain ⟨run, twin, verified, twinVerified, same⟩ :=
    verify_alike agrees coherent ordered otherCoherent proved checkDisjoint inspected
  obtain ⟨_, proof, formulas, _, verdict, issues, _, errors, unifications, _⟩ :=
    (Run.outline_same run twin).mp same
  exact ⟨run, twin, verified, twinVerified, verdict, proof, formulas, errors, unifications, issues⟩

end Verification

def variantDeclarations : List Declaration :=
  sampleDeclarations.take 8 ++
    [.constantList ["0"], .assumed "zero" "|- 0 = x" ⟨["wx"], [], []⟩,
      .proved "exchanged" "|- 0 = y" ⟨["wy"], [], []⟩ "wy zero"]

def variantTable : Table :=
  (Table.build "variant" variantDeclarations).toOption.getD { name := "variant" }

theorem variant_built : Table.build "variant" variantDeclarations = .ok variantTable := rfl

theorem variant_agrees : sampleTable.AgreesUpTo variantTable (sampleStatement 7).id := by
  refine ⟨Table.statements_agree _ _ 7 (by decide), ?_⟩
  rintro x ⟨s, member, early, declares, own⟩
  have symbols : ∀ s ∈ sampleTable.statements, s.declaresSymbols = true → ∀ x ∈ s.formula,
      sampleTable.symbolInfo x = variantTable.symbolInfo x := by decide
  exact symbols s member declares x own

theorem verify_local_sample : sampleTable ≠ variantTable ∧
    ∃ run twin, verify sampleTable true (-1) (sampleStatement 7) = .ok run ∧
      verify variantTable true (-1) (sampleStatement 7) = .ok twin ∧
      run.verdict = twin.verdict ∧ run.proof = twin.proof ∧ run.formulas = twin.formulas ∧
      run.errorCount = twin.errorCount ∧ run.unifications = twin.unifications ∧
      run.issues.map Issue.outline = twin.issues.map Issue.outline :=
  ⟨by decide, verify_local "sample" "variant" sampleDeclarations variantDeclarations sample_built
    variant_built (by decide) variant_agrees true (-1)⟩

end Lemmata
