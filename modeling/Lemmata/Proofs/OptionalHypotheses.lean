import Lemmata.Proofs.Completeness

/-!
What a proof may take for granted. It can refer to the optional hypotheses of its theorem as freely
as to the required ones, and building does not ask what an optional hypothesis says. So the accepted
proofs of a theorem need nothing but its required hypotheses and types of dummy variables exactly
when all its optional hypotheses are such types.
-/

set_option autoImplicit false

namespace Lemmata

def Statement.Dummy (t : Table) (owner : Statement) (id : Int) : Prop :=
  ∃ h v, t.statement id = some h ∧ h.typedVariable = some v ∧ v ∉ owner.frame.vars

-- Whoever applies the theorem supplies every hypothesis that the proof refers to, apart from types
-- of dummy variables.
def Proof.Supplied (t : Table) (owner : Statement) (proof : Proof) : Prop :=
  ∀ id h, .reference id ∈ proof → t.statement id = some h → h.isHypothesis = true →
    id ∈ owner.frame.required ∨ owner.Dummy t id

section References

variable {t : Table} {owner : Statement}

theorem reference_framed (proof : Proof) (admissible : proof.EachFrom (Instruction.Admissible t owner) 0)
    (id : Int) (h : Statement) (used : .reference id ∈ proof) (found : t.statement id = some h)
    (hypothesis : h.isHypothesis = true) :
    id ∈ owner.frame.required ∨ id ∈ owner.frame.optional := by
  obtain ⟨_, _, s, same, usable⟩ := admissible.member 0 proof (.reference id) used
  cases found.symm.trans same
  rcases usable with ⟨asserted, _⟩ | ⟨_, inside⟩
  · rw [h.assertion_not_hypothesis asserted] at hypothesis
    cases hypothesis
  · simpa [Frame.contains] using inside

theorem supplied_of_dummies (dummies : ∀ id ∈ owner.frame.optional, owner.Dummy t id) (proof : Proof)
    (admissible : proof.EachFrom (Instruction.Admissible t owner) 0) : proof.Supplied t owner := by
  intro id h used found hypothesis
  rcases reference_framed proof admissible id h used found hypothesis with required | optional
  · exact Or.inl required
  · exact Or.inr (dummies id optional)

theorem hypothesis_in_front (coherent : t.Coherent) (member : owner ∈ t.statements)
    (asserted : owner.isAssertion = true) (inspected : Int) (derived : Derivable t owner owner.formula)
    (id : Int) (optional : id ∈ owner.frame.optional) :
    ∃ proof : Proof, proof.EachFrom (Instruction.Admissible t owner) 0 ∧ .reference id ∈ proof ∧
      Accepts t inspected owner proof := by
  obtain ⟨h, found, hypothesis, _⟩ := (coherent.framed member asserted).optional id optional
  obtain ⟨proof, usable, pushes⟩ := derivable_pushes coherent member asserted owner.formula derived
  have front : (Instruction.reference id).Usable t owner := fun position =>
    ⟨h, found, Or.inr ⟨hypothesis, by simp [Frame.contains, optional]⟩⟩
  refine ⟨.reference id :: proof, ?_, List.mem_cons_self, ?_⟩
  · apply Proof.each_from_all
    intro position instruction present
    rcases List.mem_cons.mp present with rfl | behind
    · exact front position
    · exact usable instruction behind position
  · exact pushed_accepted t coherent owner member asserted inspected _ [h.formula]
      (pushes_append [.reference id] proof [h.formula] [owner.formula]
        (pushes_hypothesis id h found hypothesis) pushes)

end References

theorem supplied_iff_dummies (name : String) (declarations : List Declaration) (t : Table)
    (built : Table.build name declarations = .ok t) (owner : Statement) (proved : owner ∈ t.theorems)
    (inspected : Int) :
    (∀ text proof, Proof.decode t owner text = .ok proof → ∀ id h, .reference id ∈ proof →
        t.statement id = some h → h.isHypothesis = true →
        id ∈ owner.frame.required ∨ id ∈ owner.frame.optional) ∧
      ∀ known : Proof, known.EachFrom (Instruction.Admissible t owner) 0 →
        Accepts t inspected owner known →
        ((∀ proof : Proof, proof.EachFrom (Instruction.Admissible t owner) 0 →
            Accepts t inspected owner proof → proof.Supplied t owner) ↔
          ∀ id ∈ owner.frame.optional, owner.Dummy t id) := by
  have coherent := Table.build_coherent name declarations t built
  obtain ⟨member, asserted⟩ := t.theorem_asserted owner proved
  refine ⟨?_, ?_⟩
  · intro text proof decoded
    exact reference_framed proof (Proof.decode_admissible t coherent owner member asserted text proof decoded)
  · rintro known admissible ⟨run, verified, fine⟩
    have derived := verify_proof_sound t coherent owner member asserted inspected known admissible run
      verified fine
    refine ⟨?_, fun dummies proof own _ => supplied_of_dummies dummies proof own⟩
    intro supplied id optional
    obtain ⟨h, found, hypothesis, _⟩ := (coherent.framed member asserted).optional id optional
    obtain ⟨proof, own, used, accepted⟩ :=
      hypothesis_in_front coherent member asserted inspected derived id optional
    have apart := (coherent.framed member asserted).apart id optional
    exact (supplied proof own accepted id h used found hypothesis).resolve_left apart

-- The proof of the theorem uses a second variable, which the theorem itself does not mention.
def dummyDeclarations : List Declaration :=
  [.constantList ["c", "|-"], .variableList ["x", "y"], .floating "cx" "c x", .floating "cy" "c y",
    .assumed "pair" "|- x y" ⟨["cx", "cy"], [], []⟩, .essential "both" "|- x y",
    .assumed "first" "|- x" ⟨["cx", "cy", "both"], [], []⟩,
    .proved "alone" "|- x" ⟨["cx"], ["cy"], []⟩ "cx cy cx cy pair first"]

def dummyTable : Table :=
  (Table.build "dummy" dummyDeclarations).toOption.getD { name := "dummy" }

def dummyTheorem : Statement :=
  (dummyTable.statement 7).getD ⟨7, "", .constantList, [], {}, ""⟩

theorem supplied_iff_dummies_sample :
    let known : Proof := [.reference 2, .reference 3, .reference 2, .reference 3, .reference 4, .reference 6]
    Table.build "dummy" dummyDeclarations = .ok dummyTable ∧ dummyTheorem.frame.optional = [3] ∧
      Accepts dummyTable (-1) dummyTheorem known ∧
      ∀ proof : Proof, proof.EachFrom (Instruction.Admissible dummyTable dummyTheorem) 0 →
        Accepts dummyTable (-1) dummyTheorem proof → proof.Supplied dummyTable dummyTheorem := by
  intro known
  have built : Table.build "dummy" dummyDeclarations = .ok dummyTable := rfl
  have accepted : Accepts dummyTable (-1) dummyTheorem known := ⟨_, rfl, by decide +kernel⟩
  have settled := supplied_iff_dummies "dummy" dummyDeclarations dummyTable built dummyTheorem (by decide) (-1)
  have admissible : known.EachFrom (Instruction.Admissible dummyTable dummyTheorem) 0 :=
    Proof.decode_admissible dummyTable (Table.build_coherent "dummy" dummyDeclarations dummyTable built)
      dummyTheorem (by decide) rfl "cx cy cx cy pair first" known rfl
  refine ⟨built, rfl, accepted, (settled.2 known admissible accepted).mpr ?_⟩
  intro id optional
  obtain rfl : id = 3 := List.mem_singleton.mp optional
  exact ⟨_, 3, rfl, rfl, by decide⟩

-- Two theorems with an optional hypothesis that is no type of a dummy variable: the first one is
-- assumed, and the second one types its own variable once more.
def leakingDeclarations : List Declaration :=
  [.constantList ["c", "d", "|-", "P"], .variableList ["x"], .floating "cx" "c x", .floating "dx" "d x",
    .essential "e" "|- P",
    .proved "assuming" "|- P" ⟨[], ["e"], []⟩ "e",
    .proved "retyping" "d x" ⟨["cx"], ["dx"], []⟩ "dx"]

def leakingTable : Table :=
  (Table.build "leaking" leakingDeclarations).toOption.getD { name := "leaking" }

def leakingTheorem (id : Int) : Statement :=
  (leakingTable.statement id).getD ⟨id, "", .constantList, [], {}, ""⟩

theorem optional_hypotheses_leak :
    Table.build "leaking" leakingDeclarations = .ok leakingTable ∧
      (∃ run, verify leakingTable true (-1) (leakingTheorem 5) = .ok run ∧ run.verdict = .ok ∧
        ¬ run.proof.Supplied leakingTable (leakingTheorem 5)) ∧
      ∃ run, verify leakingTable true (-1) (leakingTheorem 6) = .ok run ∧ run.verdict = .ok ∧
        ¬ run.proof.Supplied leakingTable (leakingTheorem 6) := by
  refine ⟨rfl, ⟨_, rfl, rfl, ?_⟩, ⟨_, rfl, rfl, ?_⟩⟩
  · intro supplied
    rcases supplied 4 _ List.mem_cons_self rfl rfl with required | ⟨h, v, found, typed, _⟩
    · cases required
    · cases found
      cases typed
  · intro supplied
    rcases supplied 3 _ List.mem_cons_self rfl rfl with required | ⟨h, v, found, typed, fresh⟩
    · exact absurd required (by decide)
    · cases found
      cases typed
      exact fresh (by decide)

end Lemmata
