import Lemmata.Proofs.Coherence

/-!
Building keeps tables coherent: each declaration that is accepted adds symbols with new names or
one well-formed statement, and everything before it stays as it was.
-/

set_option autoImplicit false

namespace Lemmata

theorem foldl_m_invariant {ε α β : Type} (step : β → α → Except ε β) (invariant : β → Prop)
    (preserved : ∀ state input next, invariant state → step state input = .ok next → invariant next)
    (inputs : List α) (start final : β) (holds : invariant start)
    (finished : inputs.foldlM step start = .ok final) : invariant final := by
  induction inputs generalizing start with
  | nil =>
      cases finished
      exact holds
  | cons input rest ih =>
      rw [List.foldlM_cons, bind_ok] at finished
      obtain ⟨next, first, others⟩ := finished
      exact ih next (preserved start input next holds first) others

theorem nodup_snoc {α : Type} {items : List α} {item : α} (distinct : items.Nodup)
    (fresh : item ∉ items) : (items ++ [item]).Nodup := by
  refine List.nodup_append.mpr ⟨distinct, List.pairwise_singleton _ _, ?_⟩
  intro a member b single same
  exact fresh (List.mem_singleton.mp single ▸ same ▸ member)

theorem erase_dups_nodup {α : Type} [BEq α] [LawfulBEq α] (items : List α) :
    items.eraseDups.Nodup := by
  induction size : items.length using Nat.strongRecOn generalizing items with
  | ind n ih =>
      cases items with
      | nil => simp
      | cons item rest =>
          rw [List.eraseDups_cons, List.nodup_cons]
          have shorter := List.length_filter_le (fun b => !b == item) rest
          simp only [List.length_cons] at size
          exact ⟨by simp, ih _ (by omega) _ rfl⟩

namespace Statement

variable {t larger : Table} {s : Statement}

theorem scope_declared (coherent : t.Coherent) (formed : s.formula.Formed t) (x : Symbol)
    (present : x ∈ t.scopeOf s.formula s.frame.required) : t.Declares x := by
  simp only [Table.scopeOf, List.mem_append, List.mem_flatMap] at present
  rcases present with own | ⟨id, _, inside⟩
  · exact formed.declared x own
  · cases found : t.statement id with
    | none => simp [found] at inside
    | some h =>
        simp only [found] at inside
        split at inside
        · rename_i essential
          have kind : h.kind = .essential := by simpa using essential
          have hypothesis : h.isHypothesis = true := by simp [isHypothesis, kind, Kind.isHypothesis]
          exact (coherent.hypothesis_formed id h found hypothesis).declared x inside
        · cases inside

theorem hypothesis_before_extend (grown : t.Extends larger) (limit id : Int)
    (known : t.HypothesisBefore limit id) : larger.HypothesisBefore limit id := by
  obtain ⟨h, found, hypothesis, before⟩ := known
  exact ⟨h, grown.statement id h found, hypothesis, before⟩

theorem Framed.extend (coherent : t.Coherent) (formed : s.formula.Formed t) (framed : s.Framed t)
    (grown : t.Extends larger) : s.Framed larger := by
  have same : ∀ id ∈ s.frame.required, larger.statement id = t.statement id := by
    intro id needed
    obtain ⟨h, found, _⟩ := framed.required id needed
    rw [grown.statement id h found, found]
  have vars : larger.typedVariables s.frame.required = t.typedVariables s.frame.required :=
    List.filterMap_congr fun id needed => by rw [same id needed]
  have scope : larger.scopeOf s.formula s.frame.required = t.scopeOf s.formula s.frame.required := by
    simp only [Table.scopeOf, List.flatMap]
    rw [List.map_congr_left fun id needed => by rw [same id needed]]
  exact {
    required := fun id needed => hypothesis_before_extend grown s.id id (framed.required id needed)
    optional := fun id allowed => hypothesis_before_extend grown s.id id (framed.optional id allowed)
    apart := framed.apart
    vars := framed.vars.trans vars.symm
    varsDistinct := framed.varsDistinct
    typed := by
      intro x present var
      rw [scope] at present
      rw [grown.isVariable x (scope_declared coherent formed x present)] at var
      exact framed.typed x present var
    disjoint := framed.disjoint
    optionalDisjoint := framed.optionalDisjoint
    ordered := framed.ordered
    pairsDistinct := framed.pairsDistinct }

theorem Formed.extend (coherent : t.Coherent) (formed : s.Formed t) (grown : t.Extends larger) :
    s.Formed larger := by
  refine ⟨formed.labelled, formed.plain, fun labelled => (formed.formula labelled).extend grown, ?_, ?_⟩
  · intro floating
    obtain ⟨typecode, v, shape, var⟩ := formed.floating floating
    refine ⟨typecode, v, shape, ?_⟩
    rw [grown.isVariable v (t.variable_declared v var), var]
  · intro asserted
    have labelled := formed.labelled.mpr (Or.inr asserted)
    exact (formed.framed asserted).extend coherent (formed.formula labelled) grown

end Statement

namespace Table

theorem push_extends (t : Table) (label : String) (kind : Kind) (formula : Formula) (frame : Frame)
    (proof : String) : t.Extends (t.push label kind formula frame proof) :=
  ⟨List.prefix_rfl, List.prefix_append _ _⟩

theorem push_coherent (t : Table) (coherent : t.Coherent) (label : String) (kind : Kind)
    (formula : Formula) (frame : Frame) (proof : String)
    (fresh : ∀ other ∈ t.statements, other.label ≠ "" → other.label ≠ label)
    (formed : (Statement.mk t.statements.length label kind formula frame proof).Formed t) :
    (t.push label kind formula frame proof).Coherent := by
  have grown := t.push_extends label kind formula frame proof
  refine ⟨?_, ?_, ?_, coherent.names⟩
  · intro position s found
    rcases Nat.lt_trichotomy position t.statements.length with before | last | behind
    · rw [push, List.getElem?_append_left before] at found
      exact coherent.placed position s found
    · subst last
      simp only [push, List.getElem?_concat_length, Option.some.injEq] at found
      simp [← found]
    · simp only [push, List.getElem?_append_right (Nat.le_of_lt behind)] at found
      have bounded := (List.getElem?_eq_some_iff.mp found).1
      simp at bounded
      omega
  · intro s member
    rcases List.mem_append.mp member with old | new
    · exact (coherent.formed s old).extend coherent grown
    · rw [List.mem_singleton.mp new]
      exact formed.extend coherent grown
  · refine List.pairwise_append.mpr ⟨coherent.labels, List.pairwise_singleton _ _, ?_⟩
    intro other member s new labelled
    rw [List.mem_singleton.mp new]
    exact fresh other member labelled

theorem symbols_coherent (t : Table) (coherent : t.Coherent) (added : List SymbolInfo)
    (distinct : ((t.symbols ++ added).map SymbolInfo.name).Nodup) :
    { t with symbols := t.symbols ++ added }.Coherent := by
  have grown : t.Extends { t with symbols := t.symbols ++ added } :=
    ⟨List.prefix_append _ _, List.prefix_rfl⟩
  exact ⟨coherent.placed, fun s member => (coherent.formed s member).extend coherent grown,
    coherent.labels, distinct⟩

theorem add_symbols_ok (kind : SymbolKind) (names : List String) (symbols result : List SymbolInfo)
    (accepted : addSymbols kind names symbols = .ok result)
    (distinct : (symbols.map SymbolInfo.name).Nodup) :
    result = symbols ++ names.map (SymbolInfo.mk · kind) ∧ (result.map SymbolInfo.name).Nodup := by
  induction names generalizing symbols with
  | nil =>
      cases accepted
      exact ⟨by simp, distinct⟩
  | cons name rest ih =>
      simp only [addSymbols] at accepted
      split at accepted
      · cases accepted
      · split at accepted
        · cases accepted
        · rename_i repeated
          have fresh : name ∉ symbols.map SymbolInfo.name := by simpa using repeated
          have added : ((symbols ++ [SymbolInfo.mk name kind]).map SymbolInfo.name).Nodup := by
            simpa only [List.map_append, List.map_cons, List.map_nil] using nodup_snoc distinct fresh
          obtain ⟨shape, nodup⟩ := ih _ accepted added
          exact ⟨by simpa using shape, nodup⟩

theorem hypothesis_ok (t : Table) (coherent : t.Coherent) (label name : String) (h : Statement)
    (accepted : t.hypothesis label name = .ok h) :
    t.statement h.id = some h ∧ t.HypothesisBefore t.statements.length h.id := by
  unfold hypothesis at accepted
  cases found : t.lookup name with
  | none => simp [found] at accepted
  | some other =>
      simp only [found] at accepted
      split at accepted
      · rename_i hypothesis
        cases accepted
        obtain ⟨member, _⟩ := t.lookup_some name h found
        have placed := coherent.statement_of_member h member
        exact ⟨placed, h, placed, hypothesis, (coherent.id_bounds h member).2⟩
      · cases accepted

theorem required_hypotheses_ok (t : Table) (coherent : t.Coherent) (label : String)
    (names : List String) (before vars : List Symbol) (ids : List Int)
    (accepted : t.requiredHypotheses label names before = .ok (ids, vars)) :
    (∀ id ∈ ids, t.HypothesisBefore t.statements.length id) ∧
      vars = before ++ t.typedVariables ids ∧ (before.Nodup → vars.Nodup) := by
  induction names generalizing before ids with
  | nil =>
      cases accepted
      simp [typedVariables]
  | cons name rest ih =>
      rw [requiredHypotheses, bind_ok] at accepted
      obtain ⟨h, checked, accepted⟩ := accepted
      obtain ⟨placed, known⟩ := t.hypothesis_ok coherent label name h checked
      cases typed : h.typedVariable with
      | none =>
          simp only [typed, bind_ok, pure_ok, Prod.mk.injEq] at accepted
          obtain ⟨⟨others, all⟩, behind, rfl, rfl⟩ := accepted
          obtain ⟨othersKnown, allVars, distinct⟩ := ih before others behind
          refine ⟨List.forall_mem_cons.mpr ⟨known, othersKnown⟩, ?_, distinct⟩
          simpa [typedVariables, placed, typed] using allVars
      | some v =>
          simp only [typed] at accepted
          split at accepted
          · cases accepted
          · rename_i repeated
            simp only [bind_ok, pure_ok, Prod.mk.injEq] at accepted
            obtain ⟨⟨others, all⟩, behind, rfl, rfl⟩ := accepted
            obtain ⟨othersKnown, allVars, distinct⟩ := ih (before ++ [v]) others behind
            refine ⟨List.forall_mem_cons.mpr ⟨known, othersKnown⟩, ?_, ?_⟩
            · simpa [typedVariables, placed, typed] using allVars
            · intro beforeDistinct
              exact distinct (nodup_snoc beforeDistinct (by simpa using repeated))

theorem optional_hypotheses_ok (t : Table) (coherent : t.Coherent) (label : String)
    (required : List Int) (names : List String) (ids : List Int)
    (accepted : t.optionalHypotheses label required names = .ok ids) :
    ∀ id ∈ ids, t.HypothesisBefore t.statements.length id ∧ id ∉ required := by
  induction names generalizing ids with
  | nil =>
      cases accepted
      simp
  | cons name rest ih =>
      rw [optionalHypotheses, bind_ok] at accepted
      obtain ⟨h, checked, accepted⟩ := accepted
      split at accepted
      · cases accepted
      · rename_i both
        simp only [bind_ok, pure_ok] at accepted
        obtain ⟨others, behind, rfl⟩ := accepted
        have known := (t.hypothesis_ok coherent label name h checked).2
        exact List.forall_mem_cons.mpr ⟨⟨known, by simpa using both⟩, ih others behind⟩

theorem check_typed_ok (t : Table) (label : String) (vars : List Symbol) (scope : Formula)
    (accepted : t.checkTyped label vars scope = .ok ()) :
    ∀ x ∈ scope, t.isVariable x = true → x ∈ vars := by
  intro x present var
  unfold checkTyped at accepted
  split at accepted
  · cases accepted
  · rename_i found
    simpa [var] using List.find?_eq_none.mp found x present

theorem pair_of_ordered (x y : Int) (different : x ≠ y) : (Pair.of x y).a < (Pair.of x y).b := by
  have shape : Pair.of x y = if (y : Int) < x then ⟨y, x⟩ else ⟨x, y⟩ := rfl
  rw [shape]
  split
  · assumption
  · exact (by omega : x < y)

theorem group_pairs_ok (t : Table) (label : String) (group : List String) (pairs : List Pair)
    (accepted : t.groupPairs label group = .ok pairs) : ∀ p ∈ pairs, p.a < p.b := by
  rw [groupPairs, bind_ok] at accepted
  obtain ⟨vars, _, accepted⟩ := accepted
  dsimp only at accepted
  split at accepted
  · cases accepted
  · rename_i found
    cases accepted
    intro p member
    obtain ⟨⟨x, y⟩, later, rfl⟩ := List.mem_map.mp member
    have different : x ≠ y := by simpa using List.find?_eq_none.mp found (x, y) later
    exact pair_of_ordered x y different

theorem frame_of_ok (t : Table) (coherent : t.Coherent) (label : String) (formula : Formula)
    (dependencies : Dependencies) (frame : Frame)
    (accepted : t.frameOf label formula dependencies = .ok frame) (s : Statement)
    (id : s.id = t.statements.length) (own : s.formula = formula) (framed : s.frame = frame) :
    s.Framed t := by
  simp only [frameOf, bind_ok, pure_ok] at accepted
  obtain ⟨⟨required, vars⟩, needed, optional, allowed, _, checked, groups, grouped, rfl⟩ := accepted
  obtain ⟨requiredKnown, typed, distinct⟩ :=
    t.required_hypotheses_ok coherent label dependencies.required [] vars required needed
  have optionalKnown :=
    t.optional_hypotheses_ok coherent label required dependencies.optional optional allowed
  have pairsOrdered : ∀ p ∈ groups.flatten.eraseDups, p.a < p.b := by
    intro p member
    obtain ⟨pairs, present, inside⟩ := List.mem_flatten.mp (List.mem_eraseDups.mp member)
    obtain ⟨group, _, made⟩ := map_m_member _ _ _ grouped pairs present
    exact t.group_pairs_ok label group pairs made p inside
  have split : s.frame.pairs.Perm groups.flatten.eraseDups := by
    rw [framed]
    exact List.filter_append_perm _ _
  refine ⟨?_, ?_, ?_, ?_, ?_, ?_, ?_, ?_, ?_, ?_⟩
  · simpa only [framed, id] using requiredKnown
  · simpa only [framed, id] using fun id member => (optionalKnown id member).1
  · simpa only [framed] using fun id member => (optionalKnown id member).2
  · simpa [framed] using typed
  · simpa only [framed] using distinct List.nodup_nil
  · simpa only [framed, own] using t.check_typed_ok label vars _ checked
  · simp [framed]
  · intro p member both
    simp only [framed] at member both
    simp [both] at member
  · intro p member
    exact pairsOrdered p (split.mem_iff.mp member)
  · exact split.nodup_iff.mpr (erase_dups_nodup groups.flatten)

theorem check_label_ok (t : Table) (label : String) (accepted : t.checkLabel label = .ok ()) :
    label ≠ "" ∧ isLabelName label = true ∧ t.lookup label = none ∧ t.symbol label = none := by
  unfold checkLabel at accepted
  split at accepted
  · cases accepted
  · rename_i nonempty
    split at accepted
    · cases accepted
    · rename_i plain
      split at accepted
      · cases accepted
      · rename_i fresh
        split at accepted
        · cases accepted
        · rename_i apart
          exact ⟨nonempty, by simpa using plain, by simpa using fresh, by simpa using apart⟩

theorem lookup_none (t : Table) (label : String) (nonempty : label ≠ "")
    (missing : t.lookup label = none) : ∀ s ∈ t.statements, s.label ≠ label := by
  unfold lookup at missing
  rw [if_neg nonempty] at missing
  intro s member
  simpa using List.find?_eq_none.mp missing s member

theorem symbol_declared (t : Table) (name : String) (s : Symbol) (found : t.symbol name = some s) :
    t.Declares s := by
  unfold symbol at found
  obtain ⟨index, position, rfl⟩ := Option.map_eq_some_iff.mp found
  have bounded := (List.findIdx?_eq_some_iff_getElem.mp position).1
  exact (t.declares_iff (index : Int)).mpr ⟨by omega, by omega⟩

theorem parse_declared (t : Table) (text : String) (formula : Formula)
    (parsed : t.parse text = .ok formula) : ∀ s ∈ formula, t.Declares s := by
  intro s member
  obtain ⟨name, _, found⟩ := map_m_member _ _ _ parsed s member
  split at found
  · rename_i other declared
    cases found
    exact t.symbol_declared name s declared
  · cases found

theorem check_formula_ok (t : Table) (label text : String) (formula : Formula)
    (accepted : t.checkFormula label text = .ok formula) : formula.Formed t := by
  unfold checkFormula at accepted
  split at accepted
  · cases accepted
  · cases accepted
  · rename_i head tail parsed
    split at accepted
    · cases accepted
    · rename_i const
      cases accepted
      exact ⟨⟨head, tail, rfl, by simpa using const⟩, t.parse_declared text _ parsed⟩

-- The three kinds of labelled statements differ only in what their frame and formula must satisfy
-- besides; the caller supplies that part.
theorem push_labelled_coherent (t : Table) (coherent : t.Coherent) (label : String) (kind : Kind)
    (formula : Formula) (frame : Frame) (proof : String)
    (checked : t.checkLabel label = .ok ()) (formed : formula.Formed t)
    (usable : kind.isHypothesis = true ∨ kind.isAssertion = true)
    (floating : kind = .floating → ∃ typecode v, formula = [typecode, v] ∧ t.isVariable v = true)
    (framed : kind.isAssertion = true →
      (Statement.mk t.statements.length label kind formula frame proof).Framed t) :
    (t.push label kind formula frame proof).Coherent := by
  obtain ⟨nonempty, plain, fresh, _⟩ := t.check_label_ok label checked
  have unused := t.lookup_none label nonempty fresh
  apply t.push_coherent coherent label kind formula frame proof (fun s member _ => unused s member)
  exact ⟨⟨fun _ => usable, fun _ => nonempty⟩, plain, fun _ => formed, floating, framed⟩

theorem declare_symbols_coherent (t next : Table) (coherent : t.Coherent) (kind : SymbolKind)
    (declared : Kind) (names : List String) (unlabelled : declared = .constantList ∨ declared = .variableList)
    (accepted : t.declareSymbols kind declared names = .ok next) : next.Coherent := by
  simp only [declareSymbols, bind_ok, pure_ok] at accepted
  obtain ⟨symbols, added, rfl⟩ := accepted
  obtain ⟨rfl, distinct⟩ := add_symbols_ok kind names t.symbols symbols added coherent.names
  have larger := t.symbols_coherent coherent _ distinct
  apply push_coherent _ larger
  · intro other _ labelled
    exact labelled
  · refine ⟨?_, rfl, fun labelled => absurd rfl labelled, ?_, ?_⟩
    · rcases unlabelled with rfl | rfl <;>
        simp [Statement.isHypothesis, Statement.isAssertion, Kind.isHypothesis, Kind.isAssertion]
    · rcases unlabelled with rfl | rfl <;> simp
    · rcases unlabelled with rfl | rfl <;> simp [Statement.isAssertion, Kind.isAssertion]

theorem declare_assertion_coherent (t next : Table) (coherent : t.Coherent) (label text proof : String)
    (kind : Kind) (dependencies : Dependencies) (asserted : kind = .assumed ∨ kind = .proved)
    (accepted : t.declareAssertion label kind text dependencies proof = .ok next) : next.Coherent := by
  simp only [declareAssertion, bind_ok, pure_ok] at accepted
  obtain ⟨_, checked, formula, parsed, frame, framed, rfl⟩ := accepted
  have usable : kind.isHypothesis = true ∨ kind.isAssertion = true := by
    rcases asserted with rfl | rfl <;> simp [Kind.isAssertion]
  apply t.push_labelled_coherent coherent label kind formula frame proof checked
    (t.check_formula_ok label text formula parsed) usable
  · rcases asserted with rfl | rfl <;> simp
  · intro _
    exact t.frame_of_ok coherent label formula dependencies frame framed _ rfl rfl rfl

theorem declare_coherent (t next : Table) (declaration : Declaration) (coherent : t.Coherent)
    (accepted : t.declare declaration = .ok next) : next.Coherent := by
  cases declaration with
  | constantList names =>
      exact t.declare_symbols_coherent next coherent .const .constantList names (Or.inl rfl) accepted
  | variableList names =>
      exact t.declare_symbols_coherent next coherent .var .variableList names (Or.inr rfl) accepted
  | floating label text =>
      simp only [declare, bind_ok] at accepted
      obtain ⟨_, checked, formula, parsed, accepted⟩ := accepted
      split at accepted
      · split at accepted
        · rename_i typecode v var
          cases accepted
          exact t.push_labelled_coherent coherent label .floating _ {} "" checked
            (t.check_formula_ok label text _ parsed) (Or.inl rfl) (fun _ => ⟨typecode, v, rfl, var⟩)
            (fun asserted => by cases asserted)
        · cases accepted
      · cases accepted
  | essential label text =>
      simp only [declare, bind_ok, pure_ok] at accepted
      obtain ⟨_, checked, formula, parsed, rfl⟩ := accepted
      exact t.push_labelled_coherent coherent label .essential formula {} "" checked
        (t.check_formula_ok label text formula parsed) (Or.inl rfl) (fun floating => by cases floating)
        (fun asserted => by cases asserted)
  | assumed label text dependencies =>
      exact t.declare_assertion_coherent next coherent label text "" .assumed dependencies
        (Or.inl rfl) accepted
  | proved label text dependencies proof =>
      exact t.declare_assertion_coherent next coherent label text proof .proved dependencies
        (Or.inr rfl) accepted

theorem build_coherent (name : String) (declarations : List Declaration) (t : Table)
    (built : build name declarations = .ok t) : t.Coherent := by
  have empty : ({ name } : Table).Coherent :=
    ⟨by simp, by simp, List.Pairwise.nil, List.nodup_nil⟩
  exact foldl_m_invariant declare Coherent
    (fun t declaration next => t.declare_coherent next declaration) declarations _ t empty built

end Table

def sampleDeclarations : List Declaration :=
  [.constantList ["wff", "|-", "="], .variableList ["x", "y"],
    .floating "wx" "wff x", .floating "wy" "wff y", .essential "hx" "|- x", .essential "hy" "|- y",
    .assumed "rule" "|- x = y" ⟨["wx", "wy", "hx"], [], [["x", "y"]]⟩,
    .proved "repeated" "|- x = y" ⟨["wx", "wy", "hx"], [], [["x", "y"]]⟩ "wx wy hx rule",
    .proved "exchanged" "|- y = x" ⟨["wx", "wy", "hy"], [], [["y", "x"]]⟩ "( repeated ) BACD"]

def sampleTable : Table :=
  (Table.build "sample" sampleDeclarations).toOption.getD { name := "sample" }

theorem sample_built : Table.build "sample" sampleDeclarations = .ok sampleTable := rfl

def sampleStatement (id : Int) : Statement :=
  (sampleTable.statement id).getD ⟨id, "", .constantList, [], {}, ""⟩

end Lemmata
