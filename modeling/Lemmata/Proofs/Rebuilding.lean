import Lemmata.Proofs.Compression
import Lemmata.Proofs.Fingerprints
import Lemmata.Proofs.Representation
import Lemmata.Proofs.Revision

/-!
A table that is written as a record and built again is the same table. The entry of a statement makes
a declaration; these declarations are accepted one after the other, and each of them makes the
statement that it was written for, with the proof that was written.
-/

set_option autoImplicit false

namespace Lemmata

open Text

namespace Text

theorem words_nonempty (offset : Nat) (chars : List Char) : ∀ word ∈ words offset chars, word.chars ≠ [] := by
  induction chars generalizing offset with
  | nil => simp [words]
  | cons c rest ih =>
      have behind := ih (offset + c.utf8Size)
      by_cases blank : isBlank c = true
      · simpa [words, blank] using behind
      · cases found : words (offset + c.utf8Size) rest with
        | nil => simp [words, blank, found]
        | cons first others =>
            rw [found, List.forall_mem_cons] at behind
            by_cases adjacent : first.offset = offset + c.utf8Size
            · simpa [words, blank, found, adjacent] using behind.2
            · simpa [words, blank, found, adjacent] using behind

theorem words_alone (label : List Char) (nonempty : label ≠ []) (plain : ∀ c ∈ label, isBlank c = false)
    (offset : Nat) : words offset label = [⟨label, offset⟩] := by
  induction label generalizing offset with
  | nil => exact absurd rfl nonempty
  | cons c others ih =>
      rw [List.forall_mem_cons] at plain
      cases others with
      | nil => simp [words, plain.1]
      | cons d more =>
          rw [words, ih (List.cons_ne_nil d more) plain.2]
          simp [plain.1]

theorem words_joined (parts : List (List Char))
    (plain : ∀ part ∈ parts, part ≠ [] ∧ ∀ c ∈ part, isBlank c = false) (offset : Nat) :
    (words offset ([' '].intercalate parts)).map Word.chars = parts := by
  have white : isBlank ' ' = true := by decide
  induction parts generalizing offset with
  | nil => rfl
  | cons first others ih =>
      obtain ⟨⟨nonempty, own⟩, behind⟩ := List.forall_mem_cons.mp plain
      cases others with
      | nil => simp [List.intercalate, words_alone first nonempty own]
      | cons second more =>
          rw [List.intercalate_cons_cons, List.append_assoc, List.singleton_append,
            words_run first nonempty own offset ' ' _ white, words_blank _ _ _ white, List.map_cons, ih behind]

theorem word_names_joined (names : List String)
    (plain : ∀ name ∈ names, name.toList ≠ [] ∧ ∀ c ∈ name.toList, isBlank c = false) :
    wordNames (" ".intercalate names) = names := by
  have joined := words_joined (names.map String.toList) (by simpa using plain) 0
  have chars : wordNames (" ".intercalate names) =
      ((words 0 ([' '].intercalate (names.map String.toList))).map Word.chars).map String.ofList := by
    rw [wordNames, String.toList_intercalate, List.map_map]
    rfl
  rw [chars, joined, List.map_map]
  simp

theorem word_names_plain (text : String) :
    ∀ name ∈ wordNames text, name.toList ≠ [] ∧ ∀ c ∈ name.toList, isBlank c = false := by
  intro name member
  obtain ⟨word, present, rfl⟩ := List.mem_map.mp member
  rw [Word.name, String.toList_ofList]
  exact ⟨words_nonempty 0 _ word present, words_plain 0 _ word present⟩

end Text

theorem erase_dups_self {α : Type} [BEq α] [LawfulBEq α] (items : List α) (distinct : items.Nodup) :
    items.eraseDups = items := by
  induction items with
  | nil => rfl
  | cons item rest ih =>
      obtain ⟨fresh, others⟩ := List.nodup_cons.mp distinct
      have kept : rest.filter (fun other => !other == item) = rest := by
        rw [List.filter_eq_self]
        intro other member
        have different : other ≠ item := fun same => fresh (same ▸ member)
        simpa using different
      rw [List.eraseDups_cons, kept, ih others]

def Statement.withProof (proofOf : Statement → String) (s : Statement) : Statement :=
  { s with proof := if s.kind == .proved then proofOf s else s.proof }

namespace Table

def withProofs (t : Table) (proofOf : Statement → String) : Table :=
  { t with statements := t.statements.map (Statement.withProof proofOf) }

def restate (t : Table) (proofOf : Statement → String) (s : Statement) : Declaration :=
  let dependencies : Dependencies :=
    { required := s.frame.required.map t.labelOf
      optional := s.frame.optional.map t.labelOf
      disjoint := s.frame.pairs.map fun p => [t.symbolName p.a, t.symbolName p.b] }
  match s.kind with
  | .constantList => .constantList (s.formula.map t.symbolName)
  | .variableList => .variableList (s.formula.map t.symbolName)
  | .floating => .floating s.label (t.render s.formula)
  | .essential => .essential s.label (t.render s.formula)
  | .assumed => .assumed s.label (t.render s.formula) dependencies
  | _ => .proved s.label (t.render s.formula) dependencies (proofOf s)

section WithProofs

variable (t : Table) (proofOf : Statement → String)

theorem with_proof_revision : Statement.Revision (Statement.withProof proofOf) :=
  ⟨fun _ => rfl, fun _ => rfl, fun _ => rfl, fun _ => rfl, fun _ => rfl, fun _ => rfl⟩

theorem statement_with_proofs (id : Int) :
    (t.withProofs proofOf).statement id = (t.statement id).map (Statement.withProof proofOf) :=
  t.statement_revised id

theorem label_of_with_proofs (id : Int) : (t.withProofs proofOf).labelOf id = t.labelOf id :=
  t.label_of_revised (with_proof_revision proofOf) id

theorem formula_of_with_proofs (id : Int) : (t.withProofs proofOf).formulaOf id = t.formulaOf id :=
  t.formula_of_revised (with_proof_revision proofOf) id

theorem push_with_proofs (label : String) (kind : Kind) (formula : Formula) (frame : Frame) (proof : String) :
    (t.push label kind formula frame proof).withProofs proofOf =
      (t.withProofs proofOf).push label kind formula frame
        (if kind == .proved then proofOf ⟨t.statements.length, label, kind, formula, frame, proof⟩
          else proof) :=
  t.push_revised label kind formula frame frame proof _ rfl

theorem check_label_with_proofs (label : String) :
    (t.withProofs proofOf).checkLabel label = t.checkLabel label :=
  t.check_label_revised (with_proof_revision proofOf) label

theorem frame_with_proofs (label : String) (formula : Formula) (dependencies : Dependencies) :
    (t.withProofs proofOf).frameOf label formula dependencies = t.frameOf label formula dependencies :=
  t.frame_revised (with_proof_revision proofOf) label formula dependencies

end WithProofs

section Names

variable {t larger : Table}

theorem Coherent.symbol_of_name (coherent : t.Coherent) (x : Symbol) (declared : t.Declares x) :
    t.symbol (t.symbolName x) = some x := by
  obtain ⟨info, found, _, name⟩ := declared_info x declared
  rw [coherent.symbol_iff, found, name, Option.map_some]

theorem Coherent.name_of_symbol (coherent : t.Coherent) (name : String) (x : Symbol)
    (found : t.symbol name = some x) : t.symbolName x = name := by
  obtain ⟨info, entry, _, own⟩ := declared_info x (t.symbol_declared name x found)
  rw [coherent.symbol_iff, entry, Option.map_some] at found
  rw [own]
  exact Option.some.inj found

theorem Extends.symbolName (grown : t.Extends larger) (x : Symbol) (declared : t.Declares x) :
    larger.symbolName x = t.symbolName x := by
  simp only [Table.symbolName, grown.symbolInfo x declared]

theorem Extends.labelOf (grown : t.Extends larger) (id : Int) (limit : Int)
    (known : t.HypothesisBefore limit id) : larger.labelOf id = t.labelOf id := by
  obtain ⟨h, found, _⟩ := known
  simp only [Table.labelOf, found, grown.statement id h found]

theorem Coherent.names_of_symbols (coherent : t.Coherent) (names : List String) (formula : Formula)
    (found : t.symbolsOf names = .ok formula) : formula.map t.symbolName = names := by
  have each : List.Forall₂ (fun x name => t.symbolName x = name) formula names := by
    refine ((map_m_ok _ _ _).mp found).flip.imp ?_
    intro x name own
    split at own
    · rename_i other symbol
      cases own
      exact coherent.name_of_symbol name x symbol
    · cases own
  have mapped := List.forall₂_map_left_iff.mpr each
  rwa [List.forall₂_eq_eq_eq] at mapped

theorem Coherent.parse_render (coherent : t.Coherent) (text : String) (formula : Formula)
    (parsed : t.parse text = .ok formula) : t.parse (t.render formula) = .ok formula := by
  have names := coherent.names_of_symbols (wordNames text) formula parsed
  rw [render, names, parse, word_names_joined _ (word_names_plain text)]
  exact parsed

theorem Coherent.check_rendered (coherent : t.Coherent) (label text : String) (formula : Formula)
    (accepted : t.checkFormula label text = .ok formula) :
    t.checkFormula label (t.render formula) = .ok formula := by
  unfold checkFormula at accepted
  split at accepted
  · cases accepted
  · cases accepted
  · rename_i head tail parsed
    split at accepted
    · cases accepted
    · rename_i const
      cases accepted
      simp only [checkFormula, coherent.parse_render text _ parsed, if_neg const]

end Names

section Frames

variable {t : Table}

theorem Coherent.hypothesis_label (coherent : t.Coherent) (label name : String) (h : Statement)
    (accepted : t.hypothesis label name = .ok h) : t.labelOf h.id = name := by
  have placed := (t.hypothesis_ok coherent label name h accepted).1
  unfold hypothesis at accepted
  split at accepted
  · cases accepted
  · rename_i other found
    split at accepted
    · cases accepted
      rw [labelOf, placed]
      exact (t.lookup_some name h found).2.1
    · cases accepted

theorem Coherent.required_labels (coherent : t.Coherent) (label : String) (names : List String)
    (before vars : List Symbol) (ids : List Int)
    (accepted : t.requiredHypotheses label names before = .ok (ids, vars)) : ids.map t.labelOf = names := by
  induction names generalizing before ids with
  | nil =>
      cases accepted
      rfl
  | cons name rest ih =>
      rw [requiredHypotheses, bind_ok] at accepted
      obtain ⟨h, checked, accepted⟩ := accepted
      have own := coherent.hypothesis_label label name h checked
      split at accepted
      · simp only [bind_ok, pure_ok, Prod.mk.injEq] at accepted
        obtain ⟨⟨others, all⟩, behind, rfl, rfl⟩ := accepted
        rw [List.map_cons, own, ih before others behind]
      · split at accepted
        · cases accepted
        · simp only [bind_ok, pure_ok, Prod.mk.injEq] at accepted
          obtain ⟨⟨others, all⟩, behind, rfl, rfl⟩ := accepted
          rw [List.map_cons, own, ih _ others behind]

theorem Coherent.optional_labels (coherent : t.Coherent) (label : String) (required : List Int)
    (names : List String) (ids : List Int)
    (accepted : t.optionalHypotheses label required names = .ok ids) : ids.map t.labelOf = names := by
  induction names generalizing ids with
  | nil =>
      cases accepted
      rfl
  | cons name rest ih =>
      rw [optionalHypotheses, bind_ok] at accepted
      obtain ⟨h, checked, accepted⟩ := accepted
      split at accepted
      · cases accepted
      · simp only [bind_ok, pure_ok] at accepted
        obtain ⟨others, behind, rfl⟩ := accepted
        rw [List.map_cons, coherent.hypothesis_label label name h checked, ih others behind]

theorem frame_pairs_variables (label : String) (formula : Formula) (dependencies : Dependencies)
    (frame : Frame) (accepted : t.frameOf label formula dependencies = .ok frame) (p : Pair)
    (ordered : p.a < p.b) (member : p ∈ frame.pairs) :
    t.isVariable p.a = true ∧ t.isVariable p.b = true := by
  have normal : Pair.of p.a p.b = p := by simp [Pair.of, Int.not_lt.mpr (Int.le_of_lt ordered)]
  have allowed := (frame.allows_disjoint_iff p.a p.b).mpr (normal.symm ▸ member)
  obtain ⟨_, group, named, a, aInside, b, bInside, aFound, bFound⟩ :=
    (t.frame_pairs_iff label formula dependencies frame accepted p.a p.b).mp allowed
  simp only [frameOf, bind_ok] at accepted
  obtain ⟨_, _, _, _, _, _, _, grouped, _⟩ := accepted
  obtain ⟨pairs, _, made⟩ := map_m_image _ _ _ grouped group named
  rw [groupPairs, bind_ok] at made
  obtain ⟨vars, read, _⟩ := made
  have typed : ∀ name ∈ group, ∀ x, t.symbol name = some x → t.isVariable x = true := by
    intro name inside x found
    obtain ⟨other, _, own⟩ := map_m_image _ _ _ read name inside
    obtain ⟨same, var⟩ := t.group_variable_ok label name other own
    cases found.symm.trans same
    exact var
  exact ⟨typed a aInside p.a aFound, typed b bInside p.b bFound⟩

theorem Coherent.group_pair (coherent : t.Coherent) (label : String) (p : Pair) (ordered : p.a < p.b)
    (vars : t.isVariable p.a = true ∧ t.isVariable p.b = true) :
    t.groupPairs label [t.symbolName p.a, t.symbolName p.b] = .ok [p] := by
  have read : ∀ x, t.isVariable x = true → t.groupVariable label (t.symbolName x) = .ok x := by
    intro x var
    simp only [groupVariable, coherent.symbol_of_name x (t.variable_declared x var), if_pos var]
  have different : (p.a == p.b) = false := by
    simpa using Int.ne_of_lt ordered
  have normal : Pair.of p.a p.b = p := by simp [Pair.of, Int.not_lt.mpr (Int.le_of_lt ordered)]
  simp only [groupPairs, List.mapM_cons, List.mapM_nil, read p.a vars.1, read p.b vars.2, bind,
    Except.bind, pure, Except.pure, laterPairs, List.map_cons, List.map_nil, List.append_nil,
    List.find?_cons, different, List.find?_nil, normal]

theorem Coherent.frame_restated (coherent : t.Coherent) (label : String) (formula : Formula)
    (dependencies : Dependencies) (frame : Frame)
    (accepted : t.frameOf label formula dependencies = .ok frame) :
    t.frameOf label formula
      { required := frame.required.map t.labelOf
        optional := frame.optional.map t.labelOf
        disjoint := frame.pairs.map fun p => [t.symbolName p.a, t.symbolName p.b] } = .ok frame := by
  have framed : (Statement.mk t.statements.length label .assumed formula frame "").Framed t :=
    t.frame_of_ok coherent label formula dependencies frame accepted _ rfl rfl rfl
  have paired : (frame.pairs.map fun p => [t.symbolName p.a, t.symbolName p.b]).mapM (t.groupPairs label) =
      .ok (frame.pairs.map fun p => [p]) := by
    rw [map_m_ok, List.forall₂_map_left_iff, List.forall₂_map_right_iff, List.forall₂_same]
    intro p member
    have ordered := framed.ordered p member
    exact coherent.group_pair label p ordered
      (frame_pairs_variables label formula dependencies frame accepted p ordered member)
  obtain ⟨disjoint, optionalDisjoint⟩ := framed.split_pairs
  have distinct := framed.pairsDistinct
  simp only [frameOf, bind_ok, pure_ok] at accepted
  obtain ⟨⟨required, vars⟩, needed, optional, allowed, _, checked, groups, grouped, shape⟩ := accepted
  have ids : frame.required = required ∧ frame.optional = optional ∧ frame.vars = vars := by
    rw [← shape]
    exact ⟨rfl, rfl, rfl⟩
  have requiredLabels := coherent.required_labels label _ _ _ _ needed
  have optionalLabels := coherent.optional_labels label _ _ _ allowed
  rw [ids.1, ids.2.1, requiredLabels, optionalLabels]
  simp only [frameOf, bind_ok, pure_ok]
  refine ⟨_, needed, optional, allowed, (), checked, _, paired, ?_⟩
  have pairs : (frame.pairs.map fun p => [p]).flatten.eraseDups = frame.pairs := by
    rw [← List.flatMap_def, List.flatMap_singleton', erase_dups_self _ distinct]
  simp only [pairs]
  cases frame
  simp_all

end Frames

end Table

structure Statement.Recorded (t : Table) (proofOf : Statement → String) (s : Statement)
    (declaration : Declaration) : Prop where
  kind : s.kind = declaration.kind
  symbols : s.declaresSymbols = true → t.restate proofOf s = declaration
  proof : s.kind = .proved →
    ∃ label text dependencies, declaration = .proved label text dependencies s.proof

namespace Table

-- The declaration has made one statement, and the declaration that this statement stands for makes it
-- again when the theorems before it have other proofs.
structure Redeclared (t : Table) (proofOf : Statement → String) (declaration : Declaration) (next : Table)
    (s : Statement) : Prop where
  name : next.name = t.name
  grown : t.Extends next
  statements : next.statements = t.statements ++ [s]
  recorded : s.Recorded next proofOf declaration
  declared : (t.withProofs proofOf).declare (next.restate proofOf s) = .ok (next.withProofs proofOf)

variable {proofOf : Statement → String}

theorem Extends.restate {t larger : Table} (grown : t.Extends larger) (coherent : t.Coherent)
    (ordered : t.Ordered) (s : Statement) (member : s ∈ t.statements) :
    larger.restate proofOf s = t.restate proofOf s := by
  have names : s.formula.map larger.symbolName = s.formula.map t.symbolName :=
    List.map_congr_left fun x used => grown.symbolName x ((ordered.used s member x used).declares ordered)
  have rendered : larger.render s.formula = t.render s.formula := by rw [render, render, names]
  have known : ∀ id ∈ s.frame.required ++ s.frame.optional, larger.labelOf id = t.labelOf id := by
    intro id usable
    cases asserted : s.isAssertion with
    | false =>
        rw [ordered.unframed s member asserted] at usable
        cases usable
    | true => exact grown.labelOf id s.id ((coherent.framed member asserted).usable id usable)
  have required : s.frame.required.map larger.labelOf = s.frame.required.map t.labelOf :=
    List.map_congr_left fun id needed => known id (List.mem_append_left _ needed)
  have optional : s.frame.optional.map larger.labelOf = s.frame.optional.map t.labelOf :=
    List.map_congr_left fun id allowed => known id (List.mem_append_right _ allowed)
  have pairs : (s.frame.pairs.map fun p => [larger.symbolName p.a, larger.symbolName p.b]) =
      s.frame.pairs.map fun p => [t.symbolName p.a, t.symbolName p.b] := by
    apply List.map_congr_left
    intro p present
    obtain ⟨a, b⟩ := ordered.paired s member p present
    rw [grown.symbolName p.a (a.declares ordered), grown.symbolName p.b (b.declares ordered)]
  simp only [Table.restate, names, rendered, required, optional, pairs]

theorem declared_names (t : Table) (kind : SymbolKind) (names : List String) :
    ((List.range' t.symbols.length names.length).map Int.ofNat).map
      { t with symbols := t.symbols ++ names.map (SymbolInfo.mk · kind) }.symbolName = names := by
  apply List.ext_getElem (by simp)
  intro index _ bounded
  simp only [List.getElem_map, List.getElem_range', Nat.one_mul, Int.ofNat_eq_natCast]
  set position := t.symbols.length + index with place
  have nonnegative : ¬ (position : Int) < 0 := by omega
  have different : (position : Int) ≠ separator := by
    rw [separator]
    omega
  have found : (t.symbols ++ names.map (SymbolInfo.mk · kind))[position]? = some ⟨names[index], kind⟩ := by
    rw [List.getElem?_append_right (by omega), place, Nat.add_sub_cancel_left]
    simp [bounded]
  simp only [symbolName, if_neg different, symbolInfo, if_neg nonnegative, Int.toNat_natCast, found]

theorem declare_symbols_again (t next : Table) (coherent : t.Coherent) (kind : SymbolKind) (declared : Kind)
    (names : List String) (unproved : declared ≠ .proved)
    (accepted : t.declareSymbols kind declared names = .ok next) :
    next.name = t.name ∧ t.Extends next ∧ ∃ s, next.statements = t.statements ++ [s] ∧ s.kind = declared ∧
      s.formula.map next.symbolName = names ∧
      (t.withProofs proofOf).declareSymbols kind declared names = .ok (next.withProofs proofOf) := by
  simp only [declareSymbols, bind_ok, pure_ok] at accepted
  obtain ⟨symbols, added, rfl⟩ := accepted
  obtain ⟨rfl, _⟩ := add_symbols_ok kind names t.symbols symbols added coherent.names
  refine ⟨rfl, ⟨List.prefix_append _ _, List.prefix_append _ _⟩, _, rfl, rfl, t.declared_names kind names, ?_⟩
  have plain : (declared == Kind.proved) = false := by simpa using unproved
  rw [push_with_proofs, plain]
  simp only [declareSymbols, bind_ok, pure_ok]
  exact ⟨_, added, rfl⟩

theorem declare_assertion_again (t next : Table) (coherent : t.Coherent) (label text proof : String)
    (kind : Kind) (dependencies : Dependencies)
    (accepted : t.declareAssertion label kind text dependencies proof = .ok next) :
    next.name = t.name ∧ t.Extends next ∧ ∃ formula frame,
      next.statements = t.statements ++ [⟨t.statements.length, label, kind, formula, frame, proof⟩] ∧
      (t.withProofs proofOf).declareAssertion label kind (next.render formula)
        { required := frame.required.map next.labelOf
          optional := frame.optional.map next.labelOf
          disjoint := frame.pairs.map fun p => [next.symbolName p.a, next.symbolName p.b] }
        (if kind == .proved then proofOf ⟨t.statements.length, label, kind, formula, frame, proof⟩
          else proof) = .ok (next.withProofs proofOf) := by
  simp only [declareAssertion, bind_ok, pure_ok] at accepted
  obtain ⟨_, checked, formula, parsed, frame, framed, rfl⟩ := accepted
  have grown := t.push_extends label kind formula frame proof
  refine ⟨rfl, grown, formula, frame, rfl, ?_⟩
  have frameFormed : (Statement.mk t.statements.length label kind formula frame proof).Framed t :=
    t.frame_of_ok coherent label formula dependencies frame framed _ rfl rfl rfl
  have required : frame.required.map (t.push label kind formula frame proof).labelOf =
      frame.required.map t.labelOf :=
    List.map_congr_left fun id needed => grown.labelOf id _ (frameFormed.required id needed)
  have optional : frame.optional.map (t.push label kind formula frame proof).labelOf =
      frame.optional.map t.labelOf :=
    List.map_congr_left fun id allowed => grown.labelOf id _ (frameFormed.optional id allowed)
  rw [required, optional, push_with_proofs]
  simp only [declareAssertion, bind_ok, pure_ok, check_label_with_proofs, frame_with_proofs]
  exact ⟨(), checked, formula, coherent.check_rendered label text formula parsed, frame,
    coherent.frame_restated label formula dependencies frame framed, rfl⟩

theorem declare_again (t next : Table) (proofOf : Statement → String) (coherent : t.Coherent)
    (declaration : Declaration) (accepted : t.declare declaration = .ok next) :
    ∃ s, t.Redeclared proofOf declaration next s := by
  cases declaration with
  | constantList names =>
      obtain ⟨name, grown, s, statements, kind, own, again⟩ :=
        t.declare_symbols_again next coherent .const .constantList names (by simp) accepted
      have restated : next.restate proofOf s = .constantList names := by simp [restate, kind, own]
      exact ⟨s, name, grown, statements, ⟨kind, fun _ => restated, by simp [kind]⟩, restated ▸ again⟩
  | variableList names =>
      obtain ⟨name, grown, s, statements, kind, own, again⟩ :=
        t.declare_symbols_again next coherent .var .variableList names (by simp) accepted
      have restated : next.restate proofOf s = .variableList names := by simp [restate, kind, own]
      exact ⟨s, name, grown, statements, ⟨kind, fun _ => restated, by simp [kind]⟩, restated ▸ again⟩
  | floating label text =>
      simp only [declare, bind_ok] at accepted
      obtain ⟨_, checked, formula, parsed, accepted⟩ := accepted
      have rendered := coherent.check_rendered label text formula parsed
      split at accepted
      · rename_i typecode v
        split at accepted
        · rename_i var
          cases accepted
          refine ⟨_, rfl, t.push_extends _ _ _ _ _, rfl, ⟨rfl, by simp [Statement.declaresSymbols], by simp⟩, ?_⟩
          rw [push_with_proofs]
          simp only [restate, declare, bind_ok, check_label_with_proofs]
          refine ⟨(), checked, [typecode, v], rendered, ?_⟩
          exact if_pos var
        · cases accepted
      · cases accepted
  | essential label text =>
      simp only [declare, bind_ok, pure_ok] at accepted
      obtain ⟨_, checked, formula, parsed, rfl⟩ := accepted
      refine ⟨_, rfl, t.push_extends _ _ _ _ _, rfl, ⟨rfl, by simp [Statement.declaresSymbols], by simp⟩, ?_⟩
      rw [push_with_proofs]
      simp only [restate, declare, bind_ok, pure_ok, check_label_with_proofs]
      exact ⟨(), checked, formula, coherent.check_rendered label text formula parsed, rfl⟩
  | assumed label text dependencies =>
      obtain ⟨name, grown, formula, frame, statements, again⟩ :=
        t.declare_assertion_again next coherent label text "" .assumed dependencies accepted
      exact ⟨_, name, grown, statements, ⟨rfl, by simp [Statement.declaresSymbols], by simp⟩, again⟩
  | proved label text dependencies proof =>
      obtain ⟨name, grown, formula, frame, statements, again⟩ :=
        t.declare_assertion_again next coherent label text proof .proved dependencies accepted
      exact ⟨_, name, grown, statements,
        ⟨rfl, by simp [Statement.declaresSymbols], fun _ => ⟨label, text, dependencies, rfl⟩⟩, again⟩

theorem build_again (name : String) (declarations : List Declaration) (t : Table)
    (proofOf : Statement → String) (built : build name declarations = .ok t) :
    t.name = name ∧ build name (t.statements.map (t.restate proofOf)) = .ok (t.withProofs proofOf) ∧
      List.Forall₂ (Statement.Recorded t proofOf) t.statements declarations := by
  have recorded := foldl_m_history declare
    (fun done t => (t.Coherent ∧ t.Ordered) ∧ t.name = name ∧
      build name (t.statements.map (t.restate proofOf)) = .ok (t.withProofs proofOf) ∧
      List.Forall₂ (Statement.Recorded t proofOf) t.statements done)
    ?_ declarations [] { name } t
    ⟨⟨⟨by simp, by simp, List.Pairwise.nil, List.nodup_nil⟩, ⟨rfl, by simp, by simp, by simp, by simp, by simp⟩⟩,
      rfl, rfl, .nil⟩ built
  · simpa using recorded.2
  · rintro done before declaration next ⟨⟨coherent, ordered⟩, named, rebuilt, made⟩ accepted
    obtain ⟨s, again⟩ := before.declare_again next proofOf coherent declaration accepted
    have kept : ∀ other ∈ before.statements, next.restate proofOf other = before.restate proofOf other :=
      again.grown.restate coherent ordered
    refine ⟨⟨before.declare_coherent next declaration coherent accepted,
      declare_ordered next declaration ordered coherent accepted⟩, again.name.trans named, ?_, ?_⟩
    · rw [again.statements, List.map_append, List.map_congr_left kept, build, List.foldlM_append, bind_ok]
      refine ⟨_, rebuilt, ?_⟩
      rw [List.map_singleton, List.foldlM_cons, bind_ok]
      exact ⟨_, again.declared, rfl⟩
    · rw [again.statements]
      refine List.rel_append ?_ (.cons again.recorded .nil)
      refine ((List.forall₂_and_left _ _).mpr ⟨kept, made⟩).imp ?_
      rintro other own ⟨same, back⟩
      exact ⟨back.kind, fun declares => same.trans (back.symbols declares), back.proof⟩

end Table

section Records

variable {t : Table} {proofOf : Statement → String}

theorem entry_declaration (s : Statement) (index : Nat)
    (usable : s.isHypothesis = true ∨ s.isAssertion = true) (written : s.kind = .proved → proofOf s ≠ "") :
    (t.entryOf proofOf s).declaration index = .ok (t.restate proofOf s) := by
  have known : Kind.ofName (t.entryOf proofOf s).kind = some s.kind := kind_of_name s.kind
  cases kind : s.kind with
  | floating =>
      rw [Entry.declaration, known, kind]
      simp [Table.entryOf, Table.restate, kind]
  | essential =>
      rw [Entry.declaration, known, kind]
      simp [Table.entryOf, Table.restate, kind]
  | assumed =>
      have asserted : s.isAssertion = true := by simp [Statement.isAssertion, Kind.isAssertion, kind]
      rw [Entry.declaration, known, kind]
      simp [Table.entryOf, Table.restate, kind, Entry.dependencies, asserted]
  | proved =>
      have asserted := s.proved_asserted kind
      rw [Entry.declaration, known, kind]
      simp [Table.entryOf, Table.restate, kind, Entry.dependencies, asserted, written kind]
  | _ => simp [Statement.isHypothesis, Statement.isAssertion, Kind.isHypothesis, Kind.isAssertion, kind] at usable

theorem entry_declarations (statements : List Statement) (index : Nat)
    (usable : ∀ s ∈ statements, s.isHypothesis = true ∨ s.isAssertion = true)
    (written : ∀ s ∈ statements, s.kind = .proved → proofOf s ≠ "") :
    Entry.declarations index (statements.map (t.entryOf proofOf)) =
      .ok (statements.map (t.restate proofOf)) := by
  induction statements generalizing index with
  | nil => rfl
  | cons s rest ih =>
      rw [List.forall_mem_cons] at usable written
      rw [List.map_cons, Entry.declarations, entry_declaration s index usable.1 written.1,
        ih (index + 1) usable.2 written.2]
      rfl

theorem entry_declared (index : Nat) (entry : Entry) (declaration : Declaration)
    (made : entry.declaration index = .ok declaration) :
    (declaration.kind.isHypothesis = true ∨ declaration.kind.isAssertion = true) ∧
      ∀ label text dependencies proof, declaration = .proved label text dependencies proof → proof ≠ "" := by
  unfold Entry.declaration at made
  split at made
  · cases made
  · cases made
    exact ⟨Or.inl rfl, by simp⟩
  · cases made
    exact ⟨Or.inl rfl, by simp⟩
  · cases made
    exact ⟨Or.inr rfl, by simp⟩
  · split at made
    · cases made
    · rename_i written
      cases made
      refine ⟨Or.inr rfl, ?_⟩
      rintro label text dependencies proof same
      cases same
      exact written
  · cases made

theorem entries_declared (index : Nat) (entries : List Entry) (declarations : List Declaration)
    (made : Entry.declarations index entries = .ok declarations) :
    ∀ declaration ∈ declarations,
      (declaration.kind.isHypothesis = true ∨ declaration.kind.isAssertion = true) ∧
        ∀ label text dependencies proof, declaration = .proved label text dependencies proof → proof ≠ "" := by
  induction entries generalizing index declarations with
  | nil =>
      cases made
      simp
  | cons entry rest ih =>
      simp only [Entry.declarations, bind_ok, pure_ok] at made
      obtain ⟨first, own, others, behind, rfl⟩ := made
      exact List.forall_mem_cons.mpr ⟨entry_declared index entry first own, ih (index + 1) others behind⟩

def Declaration.names (kind : Kind) : Declaration → List String
  | .constantList names => if kind = .constantList then names else []
  | .variableList names => if kind = .variableList then names else []
  | _ => []

theorem restated_names (s : Statement) (kind : Kind)
    (symbols : kind = .constantList ∨ kind = .variableList) :
    (if s.kind == kind then s.formula.map t.symbolName else []) = (t.restate proofOf s).names kind := by
  rcases symbols with rfl | rfl <;> cases own : s.kind <;> simp [Table.restate, own, Declaration.names]

theorem usable_kind (s : Statement) (usable : s.isHypothesis = true ∨ s.isAssertion = true) :
    s.kind ≠ .constantList ∧ s.kind ≠ .variableList := by
  simpa [Statement.declaresSymbols] using s.usable_silent usable

-- The statements of a table that was built from a record: those that declare its symbols, and behind
-- them those of its entries.
structure Source.Arrangement (source : Source) (t : Table) (proofOf : Statement → String)
    (declaring labelled : List Statement) : Prop where
  name : t.name = source.name
  statements : t.statements = declaring ++ labelled
  restated : declaring.map (t.restate proofOf) = source.symbolDeclarations
  usable : ∀ s ∈ labelled, s.isHypothesis = true ∨ s.isAssertion = true
  written : ∀ s ∈ labelled, s.kind = .proved → s.proof ≠ ""
  again : Table.build source.name (t.statements.map (t.restate proofOf)) = .ok (t.withProofs proofOf)

theorem Source.symbols_declared (source : Source) : ∀ declaration ∈ source.symbolDeclarations,
    declaration.kind = .constantList ∨ declaration.kind = .variableList := by
  intro declaration member
  simp only [Source.symbolDeclarations, List.mem_append] at member
  rcases member with constants | vars
  · split at constants
    · cases constants
    · rw [List.mem_singleton.mp constants]
      exact Or.inl rfl
  · split at vars
    · cases vars
    · rw [List.mem_singleton.mp vars]
      exact Or.inr rfl

theorem Source.arranged (source : Source) (t : Table) (proofOf : Statement → String)
    (built : source.build = .ok t) : ∃ declaring labelled, source.Arrangement t proofOf declaring labelled := by
  simp only [Source.build, bind_ok] at built
  obtain ⟨declarations, entries, built⟩ := built
  split at built
  · rename_i table accepted
    cases built
    obtain ⟨name, again, recorded⟩ := Table.build_again _ _ t proofOf accepted
    have first := List.forall₂_take_append _ _ _ recorded
    have rest := List.forall₂_drop_append _ _ _ recorded
    have declared := entries_declared 0 source.statements declarations entries
    have back : ∀ s ∈ t.statements.drop source.symbolDeclarations.length,
        ∃ declaration ∈ declarations, s.Recorded t proofOf declaration := by
      intro s member
      obtain ⟨index, inside, rfl⟩ := List.mem_iff_getElem.mp member
      have bounded : index < declarations.length := rest.length_eq ▸ inside
      exact ⟨declarations[index], List.getElem_mem bounded, rest.get inside bounded⟩
    refine ⟨t.statements.take source.symbolDeclarations.length,
      t.statements.drop source.symbolDeclarations.length, name, (List.take_append_drop _ _).symm, ?_, ?_, ?_,
      again⟩
    · have each : List.Forall₂ (fun s declaration => t.restate proofOf s = declaration)
          (t.statements.take source.symbolDeclarations.length) source.symbolDeclarations := by
        refine ((List.forall₂_and_left _ _).mpr ⟨source.symbols_declared, first.flip⟩).flip.imp ?_
        rintro s declaration ⟨declares, own⟩
        exact own.symbols (by simpa [Statement.declaresSymbols, own.kind] using declares)
      have mapped := List.forall₂_map_left_iff.mpr each
      rwa [List.forall₂_eq_eq_eq] at mapped
    · intro s member
      obtain ⟨declaration, present, own⟩ := back s member
      simpa only [Statement.isHypothesis, Statement.isAssertion, own.kind] using (declared declaration present).1
    · intro s member proved
      obtain ⟨declaration, present, own⟩ := back s member
      obtain ⟨label, text, dependencies, shape⟩ := own.proof proved
      exact (declared declaration present).2 label text dependencies s.proof shape
  · cases built

section Arrangement

variable {source : Source} {declaring labelled : List Statement}

theorem Source.Arrangement.declared_names (arranged : source.Arrangement t proofOf declaring labelled) (kind : Kind)
    (symbols : kind = .constantList ∨ kind = .variableList) :
    t.declaredNames kind = source.symbolDeclarations.flatMap (Declaration.names kind) := by
  have silent : labelled.flatMap (fun s => if s.kind == kind then s.formula.map t.symbolName else []) = [] := by
    rw [List.flatMap_eq_nil_iff]
    intro s member
    obtain ⟨notConstants, notVariables⟩ := usable_kind s (arranged.usable s member)
    rcases symbols with rfl | rfl
    · simp [notConstants]
    · simp [notVariables]
  rw [Table.declaredNames, arranged.statements, List.flatMap_append, silent, List.append_nil, ← arranged.restated,
    List.flatMap_map]
  congr 1
  funext s
  exact restated_names s kind symbols

theorem Source.Arrangement.constants (arranged : source.Arrangement t proofOf declaring labelled) :
    t.declaredNames .constantList = source.constantNames := by
  rw [arranged.declared_names .constantList (Or.inl rfl)]
  cases constants : source.constantNames <;> cases vars : source.variableNames <;>
    simp [Source.symbolDeclarations, Declaration.names, constants, vars]

theorem Source.Arrangement.vars (arranged : source.Arrangement t proofOf declaring labelled) :
    t.declaredNames .variableList = source.variableNames := by
  rw [arranged.declared_names .variableList (Or.inr rfl)]
  cases constants : source.constantNames <;> cases vars : source.variableNames <;>
    simp [Source.symbolDeclarations, Declaration.names, constants, vars]

theorem Source.Arrangement.entries (arranged : source.Arrangement t proofOf declaring labelled) :
    (t.statements.filter fun s => s.kind != .constantList && s.kind != .variableList) = labelled := by
  have kept := filter_split (fun s : Statement => s.kind == .constantList || s.kind == .variableList)
    declaring labelled ?_ ?_
  · rw [arranged.statements]
    simpa only [Bool.not_or, bne] using kept.2
  · intro s member
    have declaration : t.restate proofOf s ∈ source.symbolDeclarations :=
      arranged.restated ▸ List.mem_map_of_mem member
    have declares := source.symbols_declared _ declaration
    cases kind : s.kind <;> simp [Table.restate, Declaration.kind, kind] at declares ⊢
  · intro s member
    simpa using usable_kind s (arranged.usable s member)

end Arrangement

theorem Source.proof_written (source : Source) (t : Table) (built : source.build = .ok t) :
    ∀ s ∈ t.theorems, s.proof ≠ "" := by
  intro s proved
  obtain ⟨declaring, labelled, arranged⟩ := source.arranged t Statement.proof built
  obtain ⟨member, kind⟩ := List.mem_filter.mp proved
  have proof : s.kind = .proved := by simpa using kind
  have own : s ∈ labelled := by
    rw [← arranged.entries, List.mem_filter]
    exact ⟨member, by simp [proof]⟩
  exact arranged.written s own proof

theorem Source.rebuilt (source : Source) (t : Table) (proofOf : Statement → String)
    (built : source.build = .ok t) (written : ∀ s ∈ t.theorems, proofOf s ≠ "") :
    (t.toSource proofOf).build = .ok (t.withProofs proofOf) := by
  obtain ⟨declaring, labelled, arranged⟩ := source.arranged t proofOf built
  have symbols : (t.toSource proofOf).symbolDeclarations = source.symbolDeclarations := by
    simp only [Source.symbolDeclarations, Table.toSource, arranged.constants, arranged.vars]
  have declarations : Entry.declarations 0 (t.toSource proofOf).statements =
      .ok (labelled.map (t.restate proofOf)) := by
    rw [Table.toSource, arranged.entries]
    apply entry_declarations labelled 0 arranged.usable
    intro s member proved
    exact written s (List.mem_filter.mpr
      ⟨arranged.statements ▸ List.mem_append_right _ member, by simpa using proved⟩)
  have again := arranged.again
  rw [arranged.statements, List.map_append, arranged.restated, ← arranged.name] at again
  simp only [Source.build, declarations, symbols, bind, Except.bind]
  rw [show (t.toSource proofOf).name = t.name from rfl, again]
  rfl

theorem source_with_proofs (t : Table) (proofOf : Statement → String) :
    (t.withProofs proofOf).toSource = t.toSource proofOf := by
  have names : ∀ kind, (t.withProofs proofOf).declaredNames kind = t.declaredNames kind := by
    intro kind
    simp only [Table.declaredNames, Table.withProofs, List.flatMap_map]
    rfl
  have entry : ∀ s : Statement,
      (t.withProofs proofOf).entryOf Statement.proof (s.withProof proofOf) = t.entryOf proofOf s := by
    intro s
    simp only [Table.entryOf, funext (t.label_of_with_proofs proofOf), Statement.withProof]
    split <;> rfl
  simp only [Table.toSource, names, Source.mk.injEq, true_and]
  refine ⟨rfl, ?_⟩
  simp only [Table.withProofs, List.filter_map, List.map_map]
  exact List.map_congr_left fun s _ => entry s

end Records

theorem rebuild_same (source : Source) (t : Table) (built : source.build = .ok t)
    (rewrite : Option (Statement → String))
    (written : ∀ proofOf ∈ rewrite, ∀ s ∈ t.theorems, proofOf s ≠ "") :
    let proofOf := rewrite.getD Statement.proof
    ∃ rebuilt, (t.toSource proofOf).build = .ok rebuilt ∧ rebuilt.name = t.name ∧
      rebuilt.symbols = t.symbols ∧
      (∀ id, rebuilt.statement id = (t.statement id).map (Statement.withProof proofOf)) ∧
      rebuilt.toSource = t.toSource proofOf := by
  intro proofOf
  have texts : ∀ s ∈ t.theorems, proofOf s ≠ "" := by
    cases given : rewrite with
    | some rewritten => simpa [proofOf, given] using written rewritten given
    | none => simpa [proofOf, given] using source.proof_written t built
  exact ⟨t.withProofs proofOf, source.rebuilt t proofOf built texts, rfl, rfl, t.statement_with_proofs proofOf,
    source_with_proofs t proofOf⟩

def groupedSource : Source where
  name := "grouped"
  constantNames := ["wff", "|-", "="]
  variableNames := ["x", "y", "z"]
  statements :=
    [{ label := "wx", kind := "floating", formula := "wff x" },
      { label := "wy", kind := "floating", formula := "wff y" },
      { label := "wz", kind := "floating", formula := "wff z" },
      { label := "hx", kind := "essential", formula := " |-   x" },
      { label := "rule", kind := "axiom", formula := "|- x = y", hypotheses := ["wx", "wy", "hx"],
        optional := ["wz"], disjoint := [["z", "y", "x"], ["x", "y"]] },
      { label := "repeated", kind := "theorem", formula := "|- x = y", hypotheses := ["wx", "wy", "hx"],
        disjoint := [["y", "x"]], proof := "wx wy hx rule" }]

theorem rebuild_same_sample :
    groupedSource.build = .ok (tableOf groupedSource) ∧
      (tableOf groupedSource).toSource ≠ groupedSource ∧
      ∃ rebuilt, ((tableOf groupedSource).toSource fun s => s.label ++ " ?").build = .ok rebuilt ∧
        rebuilt.symbols = (tableOf groupedSource).symbols ∧
        rebuilt.toSource = (tableOf groupedSource).toSource fun s => s.label ++ " ?" := by
  obtain ⟨rebuilt, accepted, _, symbols, _, again⟩ := rebuild_same groupedSource (tableOf groupedSource) rfl
    (some fun s => s.label ++ " ?") (by rintro _ ⟨⟩; decide)
  exact ⟨rfl, by decide, rebuilt, accepted, symbols, again⟩

end Lemmata
