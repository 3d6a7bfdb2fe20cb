import Lemmata.Proof.Decode
import Lemmata.Proofs.Coherence

/-!
What a proof text can read as. Every reference of a proof that was read is a required hypothesis
of the theorem or a statement that a word of the text names, and every reuse goes back to an
earlier step.
-/

set_option autoImplicit false

namespace Lemmata

open Text LetterCode

-- The property holds of every instruction at its position, the first one being at `position`.
def Proof.EachFrom (property : Nat → Instruction → Prop) : Nat → Proof → Prop
  | _, [] => True
  | position, instruction :: rest =>
      property position instruction ∧ Proof.EachFrom property (position + 1) rest

theorem Proof.EachFrom.imp {property weaker : Nat → Instruction → Prop} (position : Nat) (proof : Proof)
    (implies : ∀ place, ∀ instruction ∈ proof, property place instruction → weaker place instruction)
    (each : proof.EachFrom property position) : proof.EachFrom weaker position := by
  induction proof generalizing position with
  | nil => trivial
  | cons instruction rest ih =>
      refine ⟨implies position instruction List.mem_cons_self each.1, ih (position + 1) ?_ each.2⟩
      exact fun place other member => implies place other (List.mem_cons_of_mem _ member)

theorem Proof.EachFrom.member {property : Nat → Instruction → Prop} (position : Nat) (proof : Proof)
    (each : proof.EachFrom property position) (instruction : Instruction)
    (present : instruction ∈ proof) :
    ∃ place < position + proof.length, property place instruction := by
  induction proof generalizing position with
  | nil => cases present
  | cons first rest ih =>
      rw [List.length_cons]
      rcases List.mem_cons.mp present with rfl | behind
      · exact ⟨position, by omega, each.1⟩
      · obtain ⟨place, bounded, own⟩ := ih (position + 1) each.2 behind
        exact ⟨place, by omega, own⟩

theorem Proof.each_from_all {property : Nat → Instruction → Prop} (proof : Proof) (position : Nat)
    (all : ∀ place, ∀ instruction ∈ proof, property place instruction) :
    proof.EachFrom property position := by
  induction proof generalizing position with
  | nil => trivial
  | cons instruction rest ih =>
      exact ⟨all position instruction List.mem_cons_self, ih (position + 1)
        fun place other member => all place other (List.mem_cons_of_mem _ member)⟩

namespace Instruction

def Admissible (t : Table) (owner : Statement) (position : Nat) : Instruction → Prop
  | .reference id => ∃ s, t.statement id = some s ∧
      (s.isAssertion = true ∧ id < owner.id ∨ s.isHypothesis = true ∧ owner.frame.contains id = true)
  | .reuse step => 0 ≤ step ∧ step < position
  | .unknown => True
  | .invalid _ => False

def Readable (t : Table) (owner : Statement) (position : Nat) : Instruction → Prop
  | .reference id => id ∈ owner.frame.required ∨
      ∃ word, (∀ c ∈ word.chars, isBlank c = false) ∧ Proof.resolve t owner word = .ok id
  | .reuse step => 0 ≤ step ∧ step < position
  | .unknown => True
  | .invalid _ => False

end Instruction

theorem words_plain (offset : Nat) (chars : List Char) :
    ∀ word ∈ words offset chars, ∀ c ∈ word.chars, isBlank c = false := by
  induction chars generalizing offset with
  | nil => simp [words]
  | cons c rest ih =>
      have behind := ih (offset + c.utf8Size)
      by_cases blank : isBlank c = true
      · simpa [words, blank] using behind
      · have plain : isBlank c = false := by simpa using blank
        cases found : words (offset + c.utf8Size) rest with
        | nil => simp [words, plain, found]
        | cons first others =>
            rw [found, List.forall_mem_cons] at behind
            by_cases adjacent : first.offset = offset + c.utf8Size
            · simpa [words, plain, found, adjacent] using behind
            · simpa [words, plain, found, adjacent] using behind

namespace Proof

theorem resolve_ok (t : Table) (coherent : t.Coherent) (owner : Statement) (word : Word) (id : Int)
    (resolved : resolve t owner word = .ok id) :
    ∃ s, t.statement id = some s ∧ s ∈ t.statements ∧ s.label = word.name ∧ id < owner.id ∧
      (s.isAssertion = true ∨ s.isHypothesis = true ∧ owner.frame.contains id = true) := by
  unfold resolve at resolved
  split at resolved
  · cases resolved
  · rename_i s found
    obtain ⟨member, label, _⟩ := t.lookup_some word.name s found
    have placed := coherent.statement_of_member s member
    split at resolved
    · cases resolved
    · rename_i early
      have before : s.id < owner.id := by omega
      split at resolved
      · rename_i hypothesis
        split at resolved
        · rename_i inside
          cases resolved
          exact ⟨s, placed, member, label, before, Or.inr ⟨hypothesis, inside⟩⟩
        · cases resolved
      · split at resolved
        · rename_i asserted
          cases resolved
          exact ⟨s, placed, member, label, before, Or.inl asserted⟩
        · cases resolved

theorem readable_admissible (t : Table) (coherent : t.Coherent) (owner : Statement)
    (member : owner ∈ t.statements) (asserted : owner.isAssertion = true) (position : Nat)
    (instruction : Instruction) (readable : instruction.Readable t owner position) :
    instruction.Admissible t owner position := by
  cases instruction with
  | reference id =>
      rcases readable with required | ⟨word, _, resolved⟩
      · obtain ⟨h, found, hypothesis, _⟩ := (coherent.framed member asserted).required id required
        refine ⟨h, found, Or.inr ⟨hypothesis, ?_⟩⟩
        simp [Frame.contains, required]
      · obtain ⟨s, found, _, _, before, usable⟩ := resolve_ok t coherent owner word id resolved
        refine ⟨s, found, usable.imp_left ?_⟩
        exact fun asserted => ⟨asserted, before⟩
  | reuse step => exact readable
  | unknown => trivial
  | invalid kind => exact readable

theorem decode_plain_readable (t : Table) (owner : Statement) (chars : List Char) (proof : Proof)
    (decoded : decodePlain t owner chars = .ok proof) :
    proof.EachFrom (Instruction.Readable t owner) 0 := by
  have plain := words_plain 0 chars
  unfold decodePlain at decoded
  split at decoded
  · cases decoded
  · apply each_from_all
    intro position instruction member
    obtain ⟨word, present, made⟩ := map_m_member _ _ _ decoded instruction member
    unfold decodeWord at made
    split at made
    · cases made
      trivial
    · simp only [bind_ok, pure_ok] at made
      obtain ⟨id, resolved, rfl⟩ := made
      exact Or.inr ⟨word, plain word present, resolved⟩

theorem listed_label_ok (t : Table) (owner : Statement) (word : Word) (id : Int)
    (accepted : listedLabel t owner word = .ok id) : resolve t owner word = .ok id := by
  unfold listedLabel at accepted
  split at accepted
  · cases accepted
  · simp only [bind_ok] at accepted
    obtain ⟨other, resolved, accepted⟩ := accepted
    split at accepted
    · cases accepted
    · cases accepted
      exact resolved

theorem numbered_readable (t : Table) (owner : Statement) (listed : List Int) (saved : List Nat)
    (position : Nat) (early : ∀ step ∈ saved, step < position)
    (resolved : ∀ id ∈ listed, (Instruction.reference id).Readable t owner position) :
    ∀ instruction ∈ numbered owner.frame.required listed saved,
      instruction.Readable t owner position := by
  intro instruction member
  simp only [numbered, List.mem_append, List.mem_map] at member
  rcases member with ⟨id, required | extra, rfl⟩ | ⟨step, present, rfl⟩
  · exact Or.inl required
  · exact resolved id extra
  · have before := early step present
    exact ⟨by omega, by omega⟩

-- The steps with a save marker all lie before the next position, whatever letter is read.
theorem letters_readable (t : Table) (owner : Statement) (listed : List Int) (state : LetterState)
    (offset : Nat) (chars : List Char) (proof : Proof)
    (early : ∀ step ∈ state.saved, step < state.count)
    (resolved : ∀ id ∈ listed, ∀ position, (Instruction.reference id).Readable t owner position)
    (read : letters owner.frame.required listed state offset chars = .ok proof) :
    proof.EachFrom (Instruction.Readable t owner) state.count := by
  induction chars generalizing state offset proof with
  | nil =>
      simp only [letters] at read
      split at read
      · cases read
        trivial
      · cases read
  | cons c rest ih =>
      simp only [letters] at read
      split at read
      · exact ih state _ proof early read
      · split at read
        · split at read
          · cases read
          · rename_i digit _ _
            exact ih { state with pending := pushHigh state.pending digit } _ proof early read
        · split at read
          · cases read
          · rename_i instruction target
            simp only [bind_ok, pure_ok] at read
            obtain ⟨others, behind, rfl⟩ := read
            refine ⟨numbered_readable t owner listed state.saved state.count early
              (fun id member => resolved id member _) instruction (List.mem_of_getElem? target), ?_⟩
            exact ih { state with pending := 0, count := state.count + 1, justSaved := false } _ others
              (fun step member => Nat.lt_succ_of_lt (early step member)) behind
        · split at read
          · cases read
          · split at read
            · cases read
            · rename_i started
              split at read
              · cases read
              · apply ih { state with saved := state.saved ++ [state.count - 1], justSaved := true } _
                  proof _ read
                intro step member
                rcases List.mem_append.mp member with old | new
                · exact early step old
                · rw [List.mem_singleton.mp new]
                  exact Nat.sub_lt (Nat.pos_of_ne_zero started) Nat.one_pos
        · split at read
          · cases read
          · simp only [bind_ok, pure_ok] at read
            obtain ⟨others, behind, rfl⟩ := read
            exact ⟨trivial, ih { state with count := state.count + 1, justSaved := false } _ others
              (fun step member => Nat.lt_succ_of_lt (early step member)) behind⟩
        · cases read

theorem decode_compressed_readable (t : Table) (owner : Statement) (opening : Nat)
    (chars : List Char) (proof : Proof)
    (decoded : decodeCompressed t owner opening chars = .ok proof) :
    proof.EachFrom (Instruction.Readable t owner) 0 := by
  simp only [decodeCompressed, bind_ok] at decoded
  obtain ⟨listed, labels, decoded⟩ := decoded
  have resolved : ∀ id ∈ listed, ∀ position, (Instruction.reference id).Readable t owner position := by
    intro id member position
    obtain ⟨word, present, made⟩ := map_m_member _ _ _ labels id member
    exact Or.inr ⟨word, words_plain _ _ word present, listed_label_ok t owner word id made⟩
  split at decoded
  · cases decoded
  · split at decoded
    · cases decoded
    · cases decoded
    · cases decoded
      exact letters_readable t owner listed {} _ _ _ (by simp) resolved (by assumption)

theorem decode_readable (t : Table) (owner : Statement) (text : String) (proof : Proof)
    (decoded : decode t owner text = .ok proof) : proof.EachFrom (Instruction.Readable t owner) 0 := by
  unfold decode at decoded
  dsimp only at decoded
  split at decoded
  · exact decode_compressed_readable t owner _ _ proof decoded
  · exact decode_plain_readable t owner _ proof decoded

theorem decode_admissible (t : Table) (coherent : t.Coherent) (owner : Statement)
    (member : owner ∈ t.statements) (asserted : owner.isAssertion = true) (text : String)
    (proof : Proof) (decoded : decode t owner text = .ok proof) :
    proof.EachFrom (Instruction.Admissible t owner) 0 :=
  (decode_readable t owner text proof decoded).imp 0 proof
    fun place instruction _ => readable_admissible t coherent owner member asserted place instruction

theorem decode_nonempty (t : Table) (owner : Statement) (text : String) (proof : Proof)
    (decoded : decode t owner text = .ok proof) : proof ≠ [] := by
  unfold decode at decoded
  dsimp only at decoded
  split at decoded
  · simp only [decodeCompressed, bind_ok] at decoded
    obtain ⟨listed, _, decoded⟩ := decoded
    split at decoded
    · cases decoded
    · split at decoded
      · cases decoded
      · cases decoded
      · rename_i other _
        cases decoded
        rintro rfl
        exact other rfl
  · unfold decodePlain at decoded
    split at decoded
    · cases decoded
    · rename_i nonempty
      intro empty
      rw [empty, map_m_ok, List.forall₂_nil_right_iff] at decoded
      exact nonempty decoded

end Proof

end Lemmata
