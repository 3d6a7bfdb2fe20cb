import Lemmata.Proofs.DeclarationOrder

/-!
What a finished table represents. Every statement comes from the declaration at its position, the
look-ups by label and by name are the inverses of the two lists, and the frame of an assertion keeps
two variables apart exactly when one of the groups of its declaration names both.
-/

set_option autoImplicit false

namespace Lemmata

theorem foldl_m_history {ε α β : Type} (step : β → α → Except ε β) (invariant : List α → β → Prop)
    (preserved : ∀ done state input next, invariant done state → step state input = .ok next →
      invariant (done ++ [input]) next)
    (inputs done : List α) (start final : β) (holds : invariant done start)
    (finished : inputs.foldlM step start = .ok final) : invariant (done ++ inputs) final := by
  induction inputs generalizing done start with
  | nil =>
      cases finished
      simpa using holds
  | cons input rest ih =>
      rw [List.foldlM_cons, bind_ok] at finished
      obtain ⟨next, first, others⟩ := finished
      simpa using ih (done ++ [input]) next (preserved done start input next holds first) others

theorem map_m_image {ε α β : Type} (f : α → Except ε β) (inputs : List α) (outputs : List β)
    (mapped : inputs.mapM f = .ok outputs) (x : α) (member : x ∈ inputs) : ∃ y ∈ outputs, f x = .ok y := by
  induction (map_m_ok f inputs outputs).mp mapped with
  | nil => cases member
  | cons first _ ih =>
      rcases List.mem_cons.mp member with rfl | behind
      · exact ⟨_, List.mem_cons_self, first⟩
      · obtain ⟨y, present, made⟩ := ih ((map_m_ok f _ _).mpr ‹_›) behind
        exact ⟨y, List.mem_cons_of_mem _ present, made⟩

theorem Pair.of_inj (x y u v : Int) (same : Pair.of x y = Pair.of u v) :
    x = u ∧ y = v ∨ x = v ∧ y = u := by
  simp only [Pair.of] at same
  split at same <;> split at same <;> cases same <;> simp

theorem Frame.allows_disjoint_iff (frame : Frame) (x y : Symbol) :
    frame.allowsDisjoint x y = true ↔ Pair.of x y ∈ frame.pairs := by
  simp [Frame.allowsDisjoint, Frame.pairs]

namespace Declaration

def kind : Declaration → Kind
  | .constantList _ => .constantList
  | .variableList _ => .variableList
  | .floating .. => .floating
  | .essential .. => .essential
  | .assumed .. => .assumed
  | .proved .. => .proved

def groups : Declaration → List (List String)
  | .assumed _ _ dependencies | .proved _ _ dependencies _ => dependencies.disjoint
  | _ => []

theorem kind_cases (declaration : Declaration) :
    declaration.kind.isHypothesis = true ∨ declaration.kind.isAssertion = true ∨
      declaration.kind = .constantList ∨ declaration.kind = .variableList := by
  cases declaration <;> simp [kind, Kind.isHypothesis, Kind.isAssertion]

end Declaration

namespace Table

def Together (t : Table) (groups : List (List String)) (x y : Symbol) : Prop :=
  ∃ group ∈ groups, ∃ a ∈ group, ∃ b ∈ group, t.symbol a = some x ∧ t.symbol b = some y

variable {t larger : Table}

theorem Coherent.symbol_iff (coherent : t.Coherent) (name : String) (x : Int) :
    t.symbol name = some x ↔ (t.symbolInfo x).map SymbolInfo.name = some name := by
  have named : ∀ (index : Nat) (info : SymbolInfo), t.symbols[index]? = some info →
      (t.symbols.map SymbolInfo.name)[index]? = some info.name := by
    intro index info found
    rw [List.getElem?_map, found, Option.map_some]
  constructor
  · intro found
    obtain ⟨index, position, rfl⟩ := Option.map_eq_some_iff.mp found
    obtain ⟨bounded, own, _⟩ := List.findIdx?_eq_some_iff_getElem.mp position
    have inside : ¬ (index : Int) < 0 := by omega
    have entry : t.symbolInfo (Int.ofNat index) = some t.symbols[index] := by
      rw [Int.ofNat_eq_natCast, symbolInfo, if_neg inside, Int.toNat_natCast,
        List.getElem?_eq_getElem bounded]
    rw [entry, Option.map_some]
    simpa using own
  · intro found
    obtain ⟨info, entry, rfl⟩ := Option.map_eq_some_iff.mp found
    obtain ⟨nonnegative, bounded⟩ := (t.declares_iff x).mp (by simp [Declares, entry])
    have outside : ¬ x < 0 := by omega
    have position : t.symbols[x.toNat]? = some info := by
      rw [← entry, symbolInfo, if_neg outside]
    have present : (t.symbols.findIdx? fun other => other.name == info.name).isSome := by
      rw [List.findIdx?_isSome, List.any_eq_true]
      exact ⟨info, List.mem_of_getElem? position, by simp⟩
    obtain ⟨index, first⟩ := Option.isSome_iff_exists.mp present
    obtain ⟨inside, own, _⟩ := List.findIdx?_eq_some_iff_getElem.mp first
    have firstNamed := named index t.symbols[index] (List.getElem?_eq_getElem inside)
    have same : (t.symbols.map SymbolInfo.name)[index]? = (t.symbols.map SymbolInfo.name)[x.toNat]? := by
      rw [firstNamed, named x.toNat info position]
      simpa using own
    have index_eq := (List.getElem?_inj (by simpa using inside) coherent.names).mp same
    rw [symbol, first, Option.map_some, index_eq, Int.ofNat_eq_natCast, Int.toNat_of_nonneg nonnegative]

theorem Extends.symbol (grown : t.Extends larger) (coherent : t.Coherent) (largerCoherent : larger.Coherent)
    (name : String) (x : Symbol) (found : t.symbol name = some x) : larger.symbol name = some x := by
  rw [largerCoherent.symbol_iff, grown.symbolInfo x (t.symbol_declared name x found)]
  exact (coherent.symbol_iff name x).mp found

theorem later_pairs_complete (vars : List Symbol) (x y : Symbol) (xMember : x ∈ vars) (yMember : y ∈ vars)
    (different : x ≠ y) : (x, y) ∈ laterPairs vars ∨ (y, x) ∈ laterPairs vars := by
  induction vars with
  | nil => cases xMember
  | cons first rest ih =>
      simp only [laterPairs, List.mem_append, List.mem_map, Prod.mk.injEq]
      rcases List.mem_cons.mp xMember with rfl | xBehind
      · have yBehind := (List.mem_cons.mp yMember).resolve_left different.symm
        exact Or.inl (Or.inl ⟨y, yBehind, rfl, rfl⟩)
      · rcases List.mem_cons.mp yMember with rfl | yBehind
        · exact Or.inr (Or.inl ⟨x, xBehind, rfl, rfl⟩)
        · exact (ih xBehind yBehind).imp Or.inr Or.inr

theorem group_variable_ok (t : Table) (label name : String) (x : Symbol)
    (accepted : t.groupVariable label name = .ok x) : t.symbol name = some x ∧ t.isVariable x = true := by
  unfold groupVariable at accepted
  split at accepted
  · rename_i other found
    split at accepted
    · rename_i var
      cases accepted
      exact ⟨found, var⟩
    · cases accepted
  · cases accepted

-- A group that is accepted names each of its variables once, so its pairs are those of any two of
-- its names that stand for different variables.
theorem group_pairs_iff (t : Table) (label : String) (group : List String) (pairs : List Pair)
    (accepted : t.groupPairs label group = .ok pairs) (x y : Symbol) :
    Pair.of x y ∈ pairs ↔ x ≠ y ∧ t.Together [group] x y := by
  rw [groupPairs, bind_ok] at accepted
  obtain ⟨vars, grouped, accepted⟩ := accepted
  have members : ∀ x, x ∈ vars ↔ ∃ a ∈ group, t.symbol a = some x := by
    intro x
    constructor
    · intro member
      obtain ⟨a, inside, found⟩ := map_m_member _ _ _ grouped x member
      exact ⟨a, inside, (t.group_variable_ok label a x found).1⟩
    · rintro ⟨a, inside, found⟩
      obtain ⟨other, member, same⟩ := map_m_image _ _ _ grouped a inside
      cases found.symm.trans (t.group_variable_ok label a other same).1
      exact member
  dsimp only at accepted
  split at accepted
  · cases accepted
  · rename_i distinct
    cases accepted
    simp only [Together, List.mem_singleton, exists_eq_left]
    constructor
    · intro member
      obtain ⟨⟨u, v⟩, later, same⟩ := List.mem_map.mp member
      have different : u ≠ v := by simpa using List.find?_eq_none.mp distinct (u, v) later
      obtain ⟨uMember, vMember⟩ := later_pairs_member vars u v later
      obtain ⟨a, aInside, aFound⟩ := (members u).mp uMember
      obtain ⟨b, bInside, bFound⟩ := (members v).mp vMember
      rcases Pair.of_inj u v x y same with ⟨rfl, rfl⟩ | ⟨rfl, rfl⟩
      · exact ⟨different, a, aInside, b, bInside, aFound, bFound⟩
      · exact ⟨different.symm, b, bInside, a, aInside, bFound, aFound⟩
    · rintro ⟨different, a, aInside, b, bInside, aFound, bFound⟩
      have xMember := (members x).mpr ⟨a, aInside, aFound⟩
      have yMember := (members y).mpr ⟨b, bInside, bFound⟩
      rcases later_pairs_complete vars x y xMember yMember different with later | later
      · exact List.mem_map.mpr ⟨(x, y), later, rfl⟩
      · exact List.mem_map.mpr ⟨(y, x), later, Pair.of_comm y x⟩

theorem group_pairs_named (t : Table) (label : String) (group : List String) (pairs : List Pair)
    (accepted : t.groupPairs label group = .ok pairs) : ∀ name ∈ group, ∃ x, t.symbol name = some x := by
  intro name inside
  rw [groupPairs, bind_ok] at accepted
  obtain ⟨vars, grouped, _⟩ := accepted
  obtain ⟨x, _, found⟩ := map_m_image _ _ _ grouped name inside
  exact ⟨x, (t.group_variable_ok label name x found).1⟩

theorem frame_pairs_iff (t : Table) (label : String) (formula : Formula) (dependencies : Dependencies)
    (frame : Frame) (accepted : t.frameOf label formula dependencies = .ok frame) (x y : Symbol) :
    frame.allowsDisjoint x y = true ↔ x ≠ y ∧ t.Together dependencies.disjoint x y := by
  simp only [frameOf, bind_ok, pure_ok] at accepted
  obtain ⟨⟨required, vars⟩, _, optional, _, _, _, groups, grouped, rfl⟩ := accepted
  rw [Frame.allows_disjoint_iff, Frame.pairs, (List.filter_append_perm _ _).mem_iff, List.mem_eraseDups,
    List.mem_flatten]
  constructor
  · rintro ⟨pairs, present, inside⟩
    obtain ⟨group, member, made⟩ := map_m_member _ _ _ grouped pairs present
    obtain ⟨different, own, single, together⟩ := (t.group_pairs_iff label group pairs made x y).mp inside
    cases List.mem_singleton.mp single
    exact ⟨different, group, member, together⟩
  · rintro ⟨different, group, member, together⟩
    obtain ⟨pairs, present, made⟩ := map_m_image _ _ _ grouped group member
    exact ⟨pairs, present, (t.group_pairs_iff label group pairs made x y).mpr
      ⟨different, group, List.mem_singleton_self group, together⟩⟩

end Table

structure Statement.DeclaredAs (t : Table) (declaration : Declaration) (s : Statement) : Prop where
  kind : s.kind = declaration.kind
  apart : ∀ x y, s.frame.allowsDisjoint x y = true ↔ x ≠ y ∧ t.Together declaration.groups x y
  named : ∀ group ∈ declaration.groups, ∀ name ∈ group, ∃ x, t.symbol name = some x

namespace Table

variable {t larger next : Table}

theorem Extends.declaredAs (grown : t.Extends larger) (coherent : t.Coherent)
    (largerCoherent : larger.Coherent) (declaration : Declaration) (s : Statement)
    (declared : s.DeclaredAs t declaration) : s.DeclaredAs larger declaration := by
  have known : ∀ group ∈ declaration.groups, ∀ name ∈ group, larger.symbol name = t.symbol name := by
    intro group member name inside
    obtain ⟨x, found⟩ := declared.named group member name inside
    rw [found, grown.symbol coherent largerCoherent name x found]
  refine ⟨declared.kind, ?_, ?_⟩
  · intro x y
    rw [declared.apart]
    refine and_congr_right fun _ => exists_congr fun group => and_congr_right fun member =>
      exists_congr fun a => and_congr_right fun aInside => exists_congr fun b =>
        and_congr_right fun bInside => ?_
    rw [known group member a aInside, known group member b bInside]
  · intro group member name inside
    rw [known group member name inside]
    exact declared.named group member name inside

structure Grown (t : Table) (declaration : Declaration) (next : Table) (s : Statement) : Prop where
  statements : next.statements = t.statements ++ [s]
  symbols : t.symbols <+: next.symbols
  declared : s.DeclaredAs t declaration

theorem Grown.extends {declaration : Declaration} {s : Statement} (grown : t.Grown declaration next s) :
    t.Extends next :=
  ⟨grown.symbols, grown.statements ▸ List.prefix_append _ _⟩

theorem declared_without_groups (t : Table) (declaration : Declaration) (s : Statement)
    (kind : s.kind = declaration.kind) (groups : declaration.groups = []) (frame : s.frame = {}) :
    s.DeclaredAs t declaration := by
  refine ⟨kind, ?_, by simp [groups]⟩
  intro x y
  simp [frame, groups, Together, Frame.allowsDisjoint]

theorem declare_symbols_grown (t next : Table) (coherent : t.Coherent) (kind : SymbolKind) (declared : Kind)
    (names : List String) (declaration : Declaration) (own : declared = declaration.kind)
    (groups : declaration.groups = [])
    (accepted : t.declareSymbols kind declared names = .ok next) : ∃ s, t.Grown declaration next s := by
  simp only [declareSymbols, bind_ok, pure_ok] at accepted
  obtain ⟨symbols, added, rfl⟩ := accepted
  obtain ⟨rfl, _⟩ := add_symbols_ok kind names t.symbols symbols added coherent.names
  exact ⟨_, rfl, List.prefix_append _ _, t.declared_without_groups _ _ own groups rfl⟩

theorem declare_assertion_grown (t next : Table) (label text proof : String) (kind : Kind)
    (dependencies : Dependencies) (declaration : Declaration) (own : kind = declaration.kind)
    (groups : declaration.groups = dependencies.disjoint)
    (accepted : t.declareAssertion label kind text dependencies proof = .ok next) :
    ∃ s, t.Grown declaration next s := by
  simp only [declareAssertion, bind_ok, pure_ok] at accepted
  obtain ⟨_, _, formula, _, frame, framed, rfl⟩ := accepted
  refine ⟨_, rfl, List.prefix_rfl, own, ?_, ?_⟩
  · rw [groups]
    exact t.frame_pairs_iff label formula dependencies frame framed
  · rw [groups]
    simp only [frameOf, bind_ok] at framed
    obtain ⟨_, _, _, _, _, _, _, grouped, _⟩ := framed
    intro group member
    obtain ⟨pairs, _, made⟩ := map_m_image _ _ _ grouped group member
    exact t.group_pairs_named label group pairs made

theorem declare_grown (t next : Table) (coherent : t.Coherent) (declaration : Declaration)
    (accepted : t.declare declaration = .ok next) : ∃ s, t.Grown declaration next s := by
  cases declaration with
  | constantList names =>
      exact t.declare_symbols_grown next coherent .const .constantList names _ rfl rfl accepted
  | variableList names =>
      exact t.declare_symbols_grown next coherent .var .variableList names _ rfl rfl accepted
  | floating label text =>
      simp only [declare, bind_ok] at accepted
      obtain ⟨_, _, formula, _, accepted⟩ := accepted
      split at accepted
      · split at accepted
        · cases accepted
          exact ⟨_, rfl, List.prefix_rfl, t.declared_without_groups _ _ rfl rfl rfl⟩
        · cases accepted
      · cases accepted
  | essential label text =>
      simp only [declare, bind_ok, pure_ok] at accepted
      obtain ⟨_, _, formula, _, rfl⟩ := accepted
      exact ⟨_, rfl, List.prefix_rfl, t.declared_without_groups _ _ rfl rfl rfl⟩
  | assumed label text dependencies =>
      exact t.declare_assertion_grown next label text "" .assumed dependencies _ rfl rfl accepted
  | proved label text dependencies proof =>
      exact t.declare_assertion_grown next label text proof .proved dependencies _ rfl rfl accepted

theorem build_declared (name : String) (declarations : List Declaration) (t : Table)
    (built : build name declarations = .ok t) :
    List.Forall₂ (fun declaration s => s.DeclaredAs t declaration) declarations t.statements := by
  have recorded := foldl_m_history declare
    (fun done t => t.Coherent ∧
      List.Forall₂ (fun declaration s => s.DeclaredAs t declaration) done t.statements)
    ?_ declarations [] { name } t ⟨⟨by simp, by simp, List.Pairwise.nil, List.nodup_nil⟩, .nil⟩ built
  · simpa using recorded.2
  · rintro done before declaration next ⟨coherent, made⟩ accepted
    have nextCoherent := before.declare_coherent next declaration coherent accepted
    obtain ⟨s, grown⟩ := before.declare_grown next coherent declaration accepted
    have kept := grown.extends.declaredAs coherent nextCoherent
    refine ⟨nextCoherent, ?_⟩
    rw [grown.statements]
    exact List.rel_append (made.imp kept) (.cons (kept declaration s grown.declared) .nil)

end Table

structure Statement.FrameHolds (t : Table) (groups : List (List String)) (s : Statement) : Prop where
  earlier : ∀ id ∈ s.frame.required ++ s.frame.optional,
    id < s.id ∧ ∃ h, t.statement id = some h ∧ h.isHypothesis = true
  apart : ∀ id ∈ s.frame.required, id ∉ s.frame.optional
  varsOnce : s.frame.vars.Nodup
  vars : ∀ v, v ∈ s.frame.vars ↔ ∃ id ∈ s.frame.required, ∃ h typecode,
    t.statement id = some h ∧ h.kind = .floating ∧ h.formula = [typecode, v]
  conclusion : ∀ x ∈ s.formula, t.isVariable x = true → x ∈ s.frame.vars
  essentials : ∀ id ∈ s.frame.required, ∀ h, t.statement id = some h → h.kind = .essential →
    ∀ x ∈ h.formula, t.isVariable x = true → x ∈ s.frame.vars
  normalised : ∀ p ∈ s.frame.disjoint ++ s.frame.optionalDisjoint, p.a < p.b
  pairsOnce : (s.frame.disjoint ++ s.frame.optionalDisjoint).Nodup
  disjoint : ∀ p ∈ s.frame.disjoint, p.a ∈ s.frame.vars ∧ p.b ∈ s.frame.vars
  optionalDisjoint : ∀ p ∈ s.frame.optionalDisjoint, p.a ∉ s.frame.vars ∨ p.b ∉ s.frame.vars
  allowed : ∀ x y, s.frame.allowsDisjoint x y = true ↔ x ≠ y ∧ t.Together groups x y

-- The invariant of a table that the declarations have made.
structure Table.Represents (t : Table) (declarations : List Declaration) : Prop where
  placed : ∀ (position : Nat) s, t.statements[position]? = some s → s.id = position
  lookup : ∀ label ≠ "", ∀ s, t.lookup label = some s ↔ s ∈ t.statements ∧ s.label = label
  symbol : ∀ name x, t.symbol name = some x ↔ (t.symbolInfo x).map SymbolInfo.name = some name
  headed : ∀ s ∈ t.statements, s.label ≠ "" →
    ∃ head tail, s.formula = head :: tail ∧ t.isVariable head = false
  declared : ∀ s ∈ t.statements, s.label ≠ "" → ∀ x ∈ s.formula, t.DeclaredBy (s.id - 1) x
  floating : ∀ s ∈ t.statements, s.kind = .floating → ∃ typecode v,
    s.formula = [typecode, v] ∧ t.isVariable typecode = false ∧ t.isVariable v = true
  framed : List.Forall₂
    (fun declaration s => s.isAssertion = true → s.FrameHolds t declaration.groups) declarations t.statements

section Invariant

variable {t : Table}

theorem Table.Coherent.lookup_iff (coherent : t.Coherent) (label : String) (nonempty : label ≠ "")
    (s : Statement) : t.lookup label = some s ↔ s ∈ t.statements ∧ s.label = label := by
  constructor
  · intro found
    obtain ⟨member, own, _⟩ := t.lookup_some label s found
    exact ⟨member, own⟩
  · rintro ⟨member, rfl⟩
    exact coherent.lookup_label s member nonempty

theorem Statement.usable_silent (s : Statement) (usable : s.isHypothesis = true ∨ s.isAssertion = true) :
    s.declaresSymbols = false := by
  cases kind : s.kind <;>
    simp [Statement.declaresSymbols, Statement.isHypothesis, Statement.isAssertion, Kind.isHypothesis,
      Kind.isAssertion, kind] at usable ⊢

theorem Statement.Formed.silent {s : Statement} (formed : s.Formed t) (labelled : s.label ≠ "") :
    s.declaresSymbols = false :=
  s.usable_silent (formed.labelled.mp labelled)

theorem Statement.Formed.constant_first {s : Statement} (formed : s.Formed t) (floating : s.kind = .floating) :
    ∃ typecode v, s.formula = [typecode, v] ∧ t.isVariable typecode = false ∧ t.isVariable v = true := by
  have labelled : s.label ≠ "" := formed.labelled.mpr (Or.inl (by simp [Statement.isHypothesis, floating,
    Kind.isHypothesis]))
  obtain ⟨typecode, v, shape, var⟩ := formed.floating floating
  obtain ⟨head, tail, split, const⟩ := (formed.formula labelled).headed
  rw [shape] at split
  cases split
  exact ⟨typecode, v, shape, const, var⟩

theorem Table.Coherent.mem_vars (coherent : t.Coherent) (s : Statement) (framed : s.Framed t) (v : Symbol) :
    v ∈ s.frame.vars ↔ ∃ id ∈ s.frame.required, ∃ h typecode,
      t.statement id = some h ∧ h.kind = .floating ∧ h.formula = [typecode, v] := by
  rw [framed.vars, t.mem_typed_variables]
  refine exists_congr fun id => and_congr_right fun _ => exists_congr fun h => ?_
  constructor
  · rintro ⟨found, typed⟩
    obtain ⟨_, typecode, shape, _⟩ := coherent.floating_formula id h v found typed
    refine ⟨typecode, found, ?_, shape⟩
    unfold Statement.typedVariable at typed
    split at typed
    · assumption
    · cases typed
  · rintro ⟨typecode, found, floating, shape⟩
    exact ⟨found, by simp [Statement.typedVariable, floating, shape]⟩

theorem Table.Coherent.frame_holds (coherent : t.Coherent) (declaration : Declaration) (s : Statement)
    (member : s ∈ t.statements) (declared : s.DeclaredAs t declaration) (asserted : s.isAssertion = true) :
    s.FrameHolds t declaration.groups := by
  have framed := coherent.framed member asserted
  refine ⟨?_, ?_, framed.varsDistinct, coherent.mem_vars s framed,
    coherent.conclusion_vars member asserted, ?_, framed.ordered, framed.pairsDistinct, framed.disjoint, ?_,
    declared.apart⟩
  · intro id usable
    obtain ⟨h, found, hypothesis, before⟩ := framed.usable id usable
    exact ⟨before, h, found, hypothesis⟩
  · exact fun id required optional => framed.apart id optional required
  · intro id required h found _ x present
    rw [← t.formula_of_statement id h found] at present
    exact coherent.required_vars member asserted id required x present
  · exact fun p member => not_and_or.mp (framed.optionalDisjoint p member)

end Invariant

theorem build_represents (name : String) (declarations : List Declaration) (t : Table)
    (built : Table.build name declarations = .ok t) : t.Represents declarations := by
  have coherent := Table.build_coherent name declarations t built
  have ordered := Table.build_ordered name declarations t built
  have declared := Table.build_declared name declarations t built
  refine ⟨coherent.placed, coherent.lookup_iff, coherent.symbol_iff, ?_, ?_, ?_, ?_⟩
  · exact fun s member labelled => ((coherent.formed s member).formula labelled).headed
  · intro s member labelled x present
    exact (ordered.used s member x present).before coherent s member
      ((coherent.formed s member).silent labelled)
  · exact fun s member => (coherent.formed s member).constant_first
  · rw [List.forall₂_iff_get] at declared ⊢
    refine ⟨declared.1, ?_⟩
    intro position inside bounded asserted
    exact coherent.frame_holds _ _ (List.get_mem _ _) (declared.2 position inside bounded) asserted

theorem build_represents_sample :
    Table.build "sample" sampleDeclarations = .ok sampleTable ∧ sampleTable.Represents sampleDeclarations :=
  ⟨sample_built, build_represents "sample" sampleDeclarations sampleTable sample_built⟩

end Lemmata
