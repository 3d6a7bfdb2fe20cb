import Lemmata.Proof.Form
import Lemmata.Proofs.Expansion
import Lemmata.Proofs.Rebuilding
import Lemmata.Proofs.SharedSymbols

/-!
Restated proofs. A database whose proofs are restated in compressed or in plain form can be built, and
every theorem keeps its verdict, as long as the plain form does not have to name a hypothesis whose
label is more than one word. Labels may hold white space that separates the words of a proof text, and
then a theorem can lose its verdict.
-/

set_option autoImplicit false

namespace Lemmata

open Text

section OtherProofs

variable (t : Table) (proofOf : Statement → String) (owner : Statement)

theorem theorems_with_proofs :
    (t.withProofs proofOf).theorems = t.theorems.map (Statement.withProof proofOf) :=
  t.theorems_revised (Table.with_proof_revision proofOf)

theorem decode_with_proofs (text : String) :
    Proof.decode (t.withProofs proofOf) (owner.withProof proofOf) text = Proof.decode t owner text :=
  Proof.decode_revised t owner (Table.with_proof_revision proofOf) text

theorem expand_with_proofs (proof : Proof) : proof.expand (t.withProofs proofOf) = proof.expand t := by
  have arity : Proof.arity (t.withProofs proofOf) = Proof.arity t := by
    funext instruction
    cases instruction with
    | reference id =>
        simp only [Proof.arity, t.statement_with_proofs]
        cases t.statement id <;> rfl
    | _ => rfl
  rw [Proof.expand_eq, Proof.expand_eq, arity]

theorem conclude_with_proofs (checkDisjoint : Bool) (assertion : Statement) (operands : List Formula) :
    Stage.conclude (t.withProofs proofOf) checkDisjoint (owner.withProof proofOf)
        (assertion.withProof proofOf) operands =
      Stage.conclude t checkDisjoint owner assertion operands := by
  have patterns : (assertion.withProof proofOf).frame.required.map (t.withProofs proofOf).formulaOf =
      assertion.frame.required.map t.formulaOf :=
    List.map_congr_left fun id _ => t.formula_of_with_proofs proofOf id
  have same : (Stage.application (t.withProofs proofOf) (owner.withProof proofOf)
      (assertion.withProof proofOf) operands).Same (Stage.application t owner assertion operands) :=
    ⟨patterns, rfl, rfl, rfl, rfl, rfl⟩
  obtain ⟨formula, failed⟩ := same.unify (t := t.withProofs proofOf) checkDisjoint
  have shared : ∀ formula : Formula, formula.Shared t (t.withProofs proofOf) := fun _ _ _ => rfl
  have alike : ((Stage.application t owner assertion operands).unify t checkDisjoint).Alike
      ((Stage.application t owner assertion operands).unify (t.withProofs proofOf) checkDisjoint) :=
    Application.unify_shared (fun pattern _ => shared pattern) (shared _) fun operand _ => shared operand
  have fails : ((Stage.application t owner assertion operands).unify t checkDisjoint).error.isSome =
      ((Stage.application t owner assertion operands).unify (t.withProofs proofOf) checkDisjoint).error.isSome := by
    simpa using congrArg Option.isSome alike.error
  simp only [Stage.conclude, formula, failed, alike.formula, fails]

theorem perform_with_proofs (checkDisjoint : Bool) :
    Stage.perform (t.withProofs proofOf) checkDisjoint (owner.withProof proofOf) =
      Stage.perform t checkDisjoint owner := by
  funext stage instruction
  cases instruction with
  | reference id =>
      simp only [Stage.perform, t.statement_with_proofs]
      cases t.statement id with
      | none => rfl
      | some s =>
          have kind : (s.withProof proofOf).isHypothesis = s.isHypothesis := rfl
          simp only [Option.map_some, kind, Stage.apply, conclude_with_proofs]
          rfl
  | _ => rfl

theorem settled_with_proofs (checkDisjoint : Bool) (proof : Proof) :
    proof.settled (t.withProofs proofOf) checkDisjoint (owner.withProof proofOf) =
      proof.settled t checkDisjoint owner := by
  rw [Proof.settled, expand_with_proofs, perform_with_proofs]
  rfl

end OtherProofs

structure Instruction.Spelled (t : Table) (owner : Statement) (instruction : Instruction) : Prop where
  nonempty : (Proof.plainWord t instruction).toList ≠ []
  plain : ∀ c ∈ (Proof.plainWord t instruction).toList, isBlank c = false
  unopened : ∀ c ∈ (Proof.plainWord t instruction).toList, c ≠ '('
  read : ∀ offset, Proof.decodeWord t owner ⟨(Proof.plainWord t instruction).toList, offset⟩ = .ok instruction

namespace Proof

variable {t : Table} {owner : Statement}

theorem reference_named (coherent : t.Coherent) (id : Int) (position : Nat)
    (admissible : (Instruction.reference id).Admissible t owner position) :
    ∃ s ∈ t.statements, t.statement id = some s ∧ s.id = id ∧ s.label ≠ "" ∧
      plainWord t (.reference id) = s.label ∧
      (s.isAssertion = true ∧ id < owner.id ∨ s.isHypothesis = true ∧ owner.frame.contains id = true) := by
  obtain ⟨s, found, usable⟩ := admissible
  have member := t.member_of_statement id s found
  refine ⟨s, member, found, coherent.statement_id id s found, ?_, by simp only [plainWord, found], usable⟩
  exact (coherent.formed s member).labelled.mpr (usable.symm.imp And.left And.left)

theorem reference_spelled (coherent : t.Coherent) (framed : owner.Framed t) (id : Int) (position : Nat)
    (admissible : (Instruction.reference id).Admissible t owner position)
    (plain : ∀ c ∈ (t.labelOf id).toList, isBlank c = false) : (Instruction.reference id).Spelled t owner := by
  obtain ⟨s, member, found, own, labelled, word, usable⟩ := reference_named coherent id position admissible
  have label : t.labelOf id = s.label := by simp only [Table.labelOf, found]
  have allowed : ∀ c ∈ s.label.toList, c ≠ '(' ∧ c ≠ '?' := by
    have nameable := (coherent.formed s member).plain
    simp only [isLabelName, List.all_eq_true, Bool.and_eq_true, bne_iff_ne] at nameable
    exact fun c present => ⟨(nameable c present).1.1.2, (nameable c present).2⟩
  have before : s.id < owner.id := by
    rw [own]
    rcases usable with ⟨_, before⟩ | ⟨_, inside⟩
    · exact before
    · have usable : id ∈ owner.frame.required ++ owner.frame.optional := by
        simpa [Frame.contains] using inside
      obtain ⟨_, _, _, before⟩ := framed.usable id usable
      exact before
  refine ⟨?_, ?_, ?_, ?_⟩
  · rw [word]
    simpa using labelled
  · rw [word, ← label]
    exact plain
  · rw [word]
    exact fun c present => (allowed c present).1
  · intro offset
    have known : s.label.toList ≠ ['?'] := by
      intro unknown
      exact (allowed '?' (by simp [unknown])).2 rfl
    have named : t.lookup (Word.name ⟨s.label.toList, offset⟩) = some s := by
      rw [Word.name, String.ofList_toList]
      exact coherent.lookup_label s member labelled
    rw [word, decodeWord, if_neg known, resolve_usable t owner s _ named before
      (usable.imp_left And.left |>.imp_right fun own' => own ▸ own'), own]
    rfl

theorem unknown_spelled : Instruction.unknown.Spelled t owner := by
  have word : (plainWord t .unknown).toList = ['?'] := by simp [plainWord]
  have plain : isBlank '?' = false := by decide
  refine ⟨by simp [word], by simp [word, plain], by simp [word], ?_⟩
  intro offset
  rw [word]
  rfl

theorem plain_text_start (proof : Proof) (nonempty : proof ≠ []) :
    ∃ first ∈ proof, ∃ rest, (" ".intercalate (proof.map (plainWord t))).toList =
      (plainWord t first).toList ++ rest := by
  cases proof with
  | nil => exact absurd rfl nonempty
  | cons first others =>
      refine ⟨first, List.mem_cons_self, ?_⟩
      rw [String.toList_intercalate, List.map_cons, List.map_cons]
      cases others with
      | nil => exact ⟨[], by simp [List.intercalate]⟩
      | cons second rest =>
          rw [List.map_cons, List.map_cons, List.intercalate_cons_cons, List.append_assoc]
          exact ⟨_, rfl⟩

theorem spelled_words (proof : Proof) (spelled : ∀ instruction ∈ proof, instruction.Spelled t owner) :
    List.Forall₂ (fun word instruction => decodeWord t owner word = .ok instruction)
      (words 0 (" ".intercalate (proof.map (plainWord t))).toList) proof := by
  have chars : (" ".intercalate (proof.map (plainWord t))).toList =
      [' '].intercalate (proof.map fun instruction => (plainWord t instruction).toList) := by
    rw [String.toList_intercalate, List.map_map]
    rfl
  have parts := words_joined (proof.map fun instruction => (plainWord t instruction).toList) (by
    intro part member
    obtain ⟨instruction, present, rfl⟩ := List.mem_map.mp member
    exact ⟨(spelled instruction present).nonempty, (spelled instruction present).plain⟩) 0
  rw [← chars, ← List.forall₂_eq_eq_eq] at parts
  have same : List.Forall₂ (fun (word : Word) instruction => word.chars = (plainWord t instruction).toList)
      (words 0 (" ".intercalate (proof.map (plainWord t))).toList) proof :=
    List.forall₂_map_left_iff.mp (List.forall₂_map_right_iff.mp parts)
  refine ((List.forall₂_and_left _ _).mpr ⟨spelled, same.flip⟩).flip.imp ?_
  rintro ⟨letters, offset⟩ instruction ⟨own, rfl⟩
  exact own.read offset

theorem decode_spelled (proof : Proof) (nonempty : proof ≠ [])
    (spelled : ∀ instruction ∈ proof, instruction.Spelled t owner) :
    decode t owner (" ".intercalate (proof.map (plainWord t))) = .ok proof := by
  have each := spelled_words proof spelled
  obtain ⟨first, member, behind, start⟩ := plain_text_start (t := t) proof nonempty
  obtain ⟨c, more, opening⟩ := List.exists_cons_of_ne_nil (spelled first member).nonempty
  have inside : c ∈ (plainWord t first).toList := by simp [opening]
  generalize " ".intercalate (proof.map (plainWord t)) = text at each start
  have trimmed : trimStart text.toList = c :: (more ++ behind) := by
    rw [start, opening, List.cons_append, trimStart,
      List.dropWhile_cons_of_neg (by simp [(spelled first member).plain c inside])]
  have whole : decodePlain t owner text.toList = .ok proof := by
    unfold decodePlain
    split
    · rename_i none
      rw [none, List.forall₂_nil_left_iff] at each
      exact absurd each nonempty
    · exact (map_m_ok _ _ _).mpr each
  unfold decode
  dsimp only
  rw [trimmed]
  split
  · rename_i opened
    exact absurd (List.cons.inj opened).1 ((spelled first member).unopened c inside)
  · exact whole

theorem plain_word_nonempty (coherent : t.Coherent) (instruction : Instruction) (position : Nat)
    (admissible : instruction.Admissible t owner position) : plainWord t instruction ≠ "" := by
  cases instruction with
  | reference id =>
      obtain ⟨s, _, _, _, labelled, word, _⟩ := reference_named coherent id position admissible
      rw [word]
      exact labelled
  | reuse step => simp [plainWord]
  | _ => simp [plainWord]

section Decoded

variable (coherent : t.Coherent) (proved : owner ∈ t.theorems) (text : String) (proof : Proof)
  (decoded : decode t owner text = .ok proof)

include coherent proved decoded

theorem expanded_admissible : ∀ instruction ∈ proof.expand t,
    (∃ position, instruction.Admissible t owner position ∧ instruction.Readable t owner position) ∧
      instruction ∈ proof ∧ ∀ target, instruction ≠ .reuse target := by
  obtain ⟨member, asserted⟩ := t.theorem_asserted owner proved
  have readable := decode_readable t owner text proof decoded
  have admissible := decode_admissible t coherent owner member asserted text proof decoded
  intro instruction present
  have direct := expand_all_direct _ t owner proof admissible instruction present
  obtain ⟨position, _, own⟩ := readable.member 0 proof instruction direct.1
  exact ⟨⟨position, readable_admissible t coherent owner member asserted position instruction own, own⟩, direct⟩

theorem expand_twice : (proof.expand t).expand t = proof.expand t :=
  expand_all_self _ _ fun instruction present =>
    (expanded_admissible coherent proved text proof decoded instruction present).2.2

theorem plain_written : plainText t proof ≠ "" := by
  have nonempty : proof.expand t ≠ [] :=
    expand_all_nonempty _ proof (decode_nonempty t owner text proof decoded)
  obtain ⟨first, present, rest, start⟩ := plain_text_start (t := t) (proof.expand t) nonempty
  obtain ⟨⟨position, admissible, _⟩, _⟩ := expanded_admissible coherent proved text proof decoded first present
  intro empty
  rw [← plainText, empty] at start
  have none := (List.append_eq_nil_iff.mp start.symm).1
  exact plain_word_nonempty coherent first position admissible (by simpa using none)

-- The plain text reads as the expansion. Words of the old text name all statements but the required
-- hypotheses, so only the labels of these have to be looked at.
theorem plain_reads (plain : ∀ id ∈ owner.frame.required, .reference id ∈ proof →
    ∀ c ∈ (t.labelOf id).toList, isBlank c = false) :
    decode t owner (plainText t proof) = .ok (proof.expand t) := by
  obtain ⟨member, asserted⟩ := t.theorem_asserted owner proved
  apply decode_spelled _ (expand_all_nonempty _ proof (decode_nonempty t owner text proof decoded))
  intro instruction present
  obtain ⟨⟨position, admissible, readable⟩, own, direct⟩ :=
    expanded_admissible coherent proved text proof decoded instruction present
  cases instruction with
  | reference id =>
      apply reference_spelled coherent (coherent.framed member asserted) id position admissible
      by_cases required : id ∈ owner.frame.required
      · exact plain id required own
      · exact (listable_of_readable t coherent owner id position readable required).plain
  | reuse target => exact absurd rfl (direct target)
  | unknown => exact unknown_spelled
  | invalid kind => exact admissible.elim

theorem compressed_reads : ∃ squished, compress t owner proof = .ok squished ∧
    decode t owner squished = .ok proof := by
  obtain ⟨member, asserted⟩ := t.theorem_asserted owner proved
  have readable := decode_readable t owner text proof decoded
  have admissible := decode_admissible t coherent owner member asserted text proof decoded
  have listable : ∀ id ∈ listedStatements owner proof, Listable t owner id := by
    intro id listed
    obtain ⟨present, missing⟩ := (mem_listed owner proof id).mp listed
    obtain ⟨position, _, own⟩ := readable.member 0 proof _ present
    exact listable_of_readable t coherent owner id position own missing
  obtain ⟨squished, compressed, shape⟩ := compress_text t owner proof (check_steps_ok t owner proof 0 admissible)
  have restored := decode_text t owner _ listable _ squished shape proof
    (decode_nonempty t owner text proof decoded) fun offset =>
      letters_run _ _ proof proof 0 {} offset (Nat.zero_add _) (numbered_of_readable t owner proof readable)
        rfl rfl rfl
  refine ⟨squished, compressed, ?_⟩
  unfold decompress at restored
  split at restored
  · exact restored
  · cases restored

end Decoded

end Proof

-- A required hypothesis that the proof of the theorem uses has a label without white space. In a
-- compressed proof such a hypothesis has a number, so nothing else makes sure of that.
def Statement.Spellable (t : Table) (s : Statement) : Prop :=
  ∀ proof, Proof.decode t s s.proof = .ok proof → ∀ id ∈ s.frame.required, .reference id ∈ proof →
    ∀ c ∈ (t.labelOf id).toList, isBlank c = false

section Restated

variable (t : Table) (form : ProofForm) (labels : List String) (s : Statement)

theorem restated_proof_cases :
    t.restatedProof form labels s = s.proof ∨
      Table.selects labels s = true ∧ ∃ proof, Proof.decode t s s.proof = .ok proof ∧
        (form = .compressed ∧ Proof.compress t s proof = .ok (t.restatedProof form labels s) ∨
          form = .plain ∧ t.restatedProof form labels s = Proof.plainText t proof) := by
  unfold Table.restatedProof
  split
  · rename_i selected
    split
    · rename_i text expressed
      refine Or.inr ⟨selected, ?_⟩
      unfold ProofForm.express at expressed
      cases decoded : Proof.decode t s s.proof with
      | error error =>
          rw [decoded] at expressed
          cases expressed
      | ok proof =>
          rw [decoded] at expressed
          refine ⟨proof, rfl, ?_⟩
          cases form with
          | compressed =>
              refine Or.inl ⟨rfl, ?_⟩
              change (Proof.compress t s proof).mapError CompressError.message = .ok text at expressed
              cases compressed : Proof.compress t s proof with
              | error error =>
                  rw [compressed] at expressed
                  cases expressed
              | ok squished =>
                  rw [compressed] at expressed
                  cases expressed
                  rfl
          | plain =>
              cases expressed
              exact Or.inr ⟨rfl, rfl⟩
    · exact Or.inl rfl
  · exact Or.inl rfl

variable {t form labels s} (coherent : t.Coherent) (proved : s ∈ t.theorems)

include coherent proved

theorem restated_proof_written (written : s.proof ≠ "") : t.restatedProof form labels s ≠ "" := by
  rcases restated_proof_cases t form labels s with
    kept | ⟨_, proof, decoded, ⟨_, compressed⟩ | ⟨_, plain⟩⟩
  · rw [kept]
    exact written
  · obtain ⟨squished, own, reads⟩ := Proof.compressed_reads coherent proved _ proof decoded
    cases own.symm.trans compressed
    intro empty
    rw [empty] at reads
    cases reads
  · rw [plain]
    exact Proof.plain_written coherent proved _ proof decoded

theorem restated_proof_reads (spellable : form = .plain → Table.selects labels s = true → s.Spellable t) :
    t.restatedProof form labels s = s.proof ∨
      ∃ proof restated, Proof.decode t s s.proof = .ok proof ∧
        Proof.decode t s (t.restatedProof form labels s) = .ok restated ∧ restated.expand t = proof.expand t := by
  rcases restated_proof_cases t form labels s with
    kept | ⟨selected, proof, decoded, ⟨_, compressed⟩ | ⟨form, plain⟩⟩
  · exact Or.inl kept
  · obtain ⟨squished, own, reads⟩ := Proof.compressed_reads coherent proved _ proof decoded
    cases own.symm.trans compressed
    exact Or.inr ⟨proof, proof, decoded, reads, rfl⟩
  · refine Or.inr ⟨proof, proof.expand t, decoded, ?_, Proof.expand_twice coherent proved _ proof decoded⟩
    rw [plain]
    exact Proof.plain_reads coherent proved _ proof decoded (spellable form selected proof decoded)

end Restated

theorem Source.build_coherent (source : Source) (t : Table) (built : source.build = .ok t) : t.Coherent := by
  obtain ⟨declarations, tableBuilt⟩ := source.build_table t built
  exact Table.build_coherent _ declarations t tableBuilt

theorem restating_keeps_verdicts (source : Source) (t : Table) (built : source.build = .ok t)
    (form : ProofForm) (labels : List String) :
    ∃ rebuilt, (t.restated form labels).build = .ok rebuilt ∧
      List.Forall₂ (fun s twin => twin.id = s.id ∧ twin.label = s.label ∧
        ((form = .plain → Table.selects labels s = true → s.Spellable t) →
          ∀ checkDisjoint inspected, ∃ run twinRun, verify t checkDisjoint inspected s = .ok run ∧
            verify rebuilt checkDisjoint inspected twin = .ok twinRun ∧ run.verdict = twinRun.verdict))
        t.theorems rebuilt.theorems := by
  have coherent := source.build_coherent t built
  have accepted := source.rebuilt t (t.restatedProof form labels) built fun s proved =>
    restated_proof_written coherent proved (source.proof_written t built s proved)
  refine ⟨_, accepted, ?_⟩
  rw [theorems_with_proofs, List.forall₂_map_right_iff, List.forall₂_same]
  intro s proved
  refine ⟨rfl, rfl, fun spellable checkDisjoint inspected => ?_⟩
  have kind : s.kind = .proved := by simpa using (List.mem_filter.mp proved).2
  have text : (s.withProof (t.restatedProof form labels)).proof = t.restatedProof form labels s := by
    simp [Statement.withProof, kind]
  obtain ⟨run, verified, verdict⟩ := verify_settled t coherent checkDisjoint inspected s proved
  obtain ⟨twinRun, twinVerified, twinVerdict⟩ := verify_settled _ (Source.build_coherent _ _ accepted)
    checkDisjoint inspected (s.withProof (t.restatedProof form labels))
    (by rw [theorems_with_proofs]; exact List.mem_map_of_mem proved)
  refine ⟨run, twinRun, verified, twinVerified, ?_⟩
  rw [verdict, twinVerdict, text, decode_with_proofs]
  simp only [settled_with_proofs]
  rcases restated_proof_reads coherent proved spellable with kept | ⟨proof, restated, decoded, reads, same⟩
  · rw [kept]
  · rw [decoded, reads]
    simp only [Proof.settled, same]

def sharingSource : Source where
  name := "sharing"
  constantNames := ["wff", "="]
  variableNames := ["x", "y"]
  statements :=
    [{ label := "wx", kind := "floating", formula := "wff x" },
      { label := "wy", kind := "floating", formula := "wff y" },
      { label := "eq", kind := "axiom", formula := "wff x = y", hypotheses := ["wx", "wy"] },
      { label := "th", kind := "theorem", formula := "wff x = x = x = x", hypotheses := ["wx"],
        proof := "( eq ) AZCBZDB" }]

theorem restating_keeps_verdicts_sample :
    sharingSource.build = .ok (tableOf sharingSource) ∧
      (tableOf sharingSource).theorems.map ((tableOf sharingSource).restatedProof .plain []) =
        ["wx wx eq wx wx eq eq"] ∧
      ∃ rebuilt, ((tableOf sharingSource).restated .plain []).build = .ok rebuilt ∧
        List.Forall₂ (fun s twin => twin.id = s.id ∧ twin.label = s.label ∧
          ∀ checkDisjoint inspected, ∃ run twinRun,
            verify (tableOf sharingSource) checkDisjoint inspected s = .ok run ∧
              verify rebuilt checkDisjoint inspected twin = .ok twinRun ∧ run.verdict = twinRun.verdict)
          (tableOf sharingSource).theorems rebuilt.theorems := by
  obtain ⟨rebuilt, accepted, each⟩ :=
    restating_keeps_verdicts sharingSource (tableOf sharingSource) rfl .plain []
  have plain : ∀ s ∈ (tableOf sharingSource).theorems, ∀ id ∈ s.frame.required,
      ((tableOf sharingSource).labelOf id).toList.all (fun c => !isBlank c) = true := by decide
  refine ⟨rfl, by decide, rebuilt, accepted, ?_⟩
  refine ((List.forall₂_and_left _ _).mpr ⟨plain, each⟩).imp ?_
  rintro s twin ⟨own, id, label, verdicts⟩
  refine ⟨id, label, verdicts fun _ _ proof _ hypothesis required _ => ?_⟩
  simpa using own hypothesis required

-- The label of the hypothesis has a no-break space. The compressed proof refers to it by its number, and
-- the plain proof by two words that name nothing.
def brokenSource : Source where
  name := "broken"
  constantNames := ["c"]
  variableNames := ["x"]
  statements :=
    [{ label := "w\u00a0x", kind := "floating", formula := "c x" },
      { label := "th", kind := "theorem", formula := "c x", hypotheses := ["w\u00a0x"], proof := "( ) A" }]

def verdicts (t : Table) : List (String × Option Severity) :=
  t.theorems.map fun s => (s.label, (verify t true (-1) s).toOption.map Run.verdict)

theorem restating_loses_verdict :
    brokenSource.build = .ok (tableOf brokenSource) ∧ (tableOf brokenSource).badSelection? [] = none ∧
      ∃ rebuilt, ((tableOf brokenSource).restated .plain []).build = .ok rebuilt ∧
        verdicts (tableOf brokenSource) = [("th", some .ok)] ∧ verdicts rebuilt = [("th", some .severe)] :=
  ⟨rfl, rfl, tableOf ((tableOf brokenSource).restated .plain []), rfl, rfl, rfl⟩

end Lemmata
