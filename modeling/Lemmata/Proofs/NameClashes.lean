import Lemmata.Proofs.Rebuilding
import Mathlib.Data.List.Pairwise

/-!
Labels and the names of symbols. A label is checked against the symbols that the table has when the
label is declared, but a symbol is not checked against the labels. So a table has a label that names
a symbol as well exactly when a symbol was declared behind a statement with its name as the label;
databases that come from a file declare their symbols first and have none.
-/

set_option autoImplicit false

namespace Lemmata

namespace Declaration

def label : Declaration → String
  | .constantList _ | .variableList _ => ""
  | .floating label _ | .essential label _ | .assumed label _ _ | .proved label _ _ _ => label

def symbolNames : Declaration → List String
  | .constantList names | .variableList names => names
  | _ => []

def Apart (declaration other : Declaration) : Prop := declaration.label ∉ other.symbolNames

instance (declaration other : Declaration) : Decidable (declaration.Apart other) :=
  inferInstanceAs (Decidable (declaration.label ∉ other.symbolNames))

def Strange (declaration other : Declaration) : Prop :=
  declaration.Apart other ∧ other.Apart declaration

instance : Std.Symm Strange := ⟨fun _ _ both => both.symm⟩

end Declaration

namespace Table

structure Named (t : Table) (declaration : Declaration) (next : Table) : Prop where
  symbols : next.symbols.map SymbolInfo.name = t.symbols.map SymbolInfo.name ++ declaration.symbolNames
  labels : next.statements.map Statement.label = t.statements.map Statement.label ++ [declaration.label]
  valid : ∀ name ∈ declaration.symbolNames, name ≠ ""
  fresh : declaration.label ∉ t.symbols.map SymbolInfo.name

theorem symbol_none (t : Table) (name : String) (missing : t.symbol name = none) :
    name ∉ t.symbols.map SymbolInfo.name := by
  rw [symbol, Option.map_eq_none_iff, List.findIdx?_eq_none_iff] at missing
  intro present
  obtain ⟨info, member, rfl⟩ := List.mem_map.mp present
  simpa using missing info member

theorem declare_symbols_named (t next : Table) (coherent : t.Coherent) (ordered : t.Ordered)
    (kind : SymbolKind) (declared : Kind) (names : List String) (declaration : Declaration)
    (own : declaration.symbolNames = names) (unlabelled : declaration.label = "")
    (accepted : t.declareSymbols kind declared names = .ok next) : t.Named declaration next := by
  simp only [declareSymbols, bind_ok, pure_ok] at accepted
  obtain ⟨symbols, added, rfl⟩ := accepted
  have valid := add_symbols_named kind names t.symbols symbols added
  obtain ⟨rfl, _⟩ := add_symbols_ok kind names t.symbols symbols added coherent.names
  refine ⟨?_, by simp [push, unlabelled], ?_, ?_⟩
  · simp [push, own, Function.comp_def]
  · rintro _ present rfl
    exact symbol_name_nonempty "" (valid "" (own ▸ present)) rfl
  · rw [unlabelled]
    intro present
    obtain ⟨info, member, empty⟩ := List.mem_map.mp present
    exact symbol_name_nonempty info.name (ordered.named info member) (by rw [empty]; rfl)

theorem push_named (t : Table) (label : String) (kind : Kind) (formula : Formula) (frame : Frame)
    (proof : String) (declaration : Declaration) (own : declaration.symbolNames = [])
    (labelled : declaration.label = label) (checked : t.checkLabel label = .ok ()) :
    t.Named declaration (t.push label kind formula frame proof) := by
  obtain ⟨_, _, _, missing⟩ := t.check_label_ok label checked
  refine ⟨by simp [push, own], by simp [push, labelled], by simp [own], ?_⟩
  rw [labelled]
  exact t.symbol_none label missing

theorem declare_named (t next : Table) (coherent : t.Coherent) (ordered : t.Ordered)
    (declaration : Declaration) (accepted : t.declare declaration = .ok next) :
    t.Named declaration next := by
  cases declaration with
  | constantList names =>
      exact t.declare_symbols_named next coherent ordered .const .constantList names _ rfl rfl accepted
  | variableList names =>
      exact t.declare_symbols_named next coherent ordered .var .variableList names _ rfl rfl accepted
  | floating label text =>
      simp only [declare, bind_ok] at accepted
      obtain ⟨_, checked, formula, _, accepted⟩ := accepted
      split at accepted
      · split at accepted
        · cases accepted
          exact t.push_named label _ _ _ _ _ rfl rfl checked
        · cases accepted
      · cases accepted
  | essential label text =>
      simp only [declare, bind_ok, pure_ok] at accepted
      obtain ⟨_, checked, formula, _, rfl⟩ := accepted
      exact t.push_named label _ _ _ _ _ rfl rfl checked
  | assumed label text dependencies =>
      simp only [declare, declareAssertion, bind_ok, pure_ok] at accepted
      obtain ⟨_, checked, formula, _, frame, _, rfl⟩ := accepted
      exact t.push_named label _ _ _ _ _ rfl rfl checked
  | proved label text dependencies proof =>
      simp only [declare, declareAssertion, bind_ok, pure_ok] at accepted
      obtain ⟨_, checked, formula, _, frame, _, rfl⟩ := accepted
      exact t.push_named label _ _ _ _ _ rfl rfl checked

structure NamedBy (declarations : List Declaration) (t : Table) : Prop where
  coherent : t.Coherent
  ordered : t.Ordered
  symbols : t.symbols.map SymbolInfo.name = declarations.flatMap Declaration.symbolNames
  labels : t.statements.map Statement.label = declarations.map Declaration.label
  valid : ∀ declaration ∈ declarations, ∀ name ∈ declaration.symbolNames, name ≠ ""
  backward : declarations.Pairwise fun earlier later => later.Apart earlier

theorem build_named_by (name : String) (declarations : List Declaration) (t : Table)
    (built : build name declarations = .ok t) : t.NamedBy declarations := by
  have recorded := foldl_m_history declare (fun done t => NamedBy done t) ?_ declarations [] { name } t
    ⟨⟨by simp, by simp, List.Pairwise.nil, List.nodup_nil⟩,
      ⟨rfl, by simp, by simp, by simp, by simp, by simp⟩, rfl, rfl, by simp, .nil⟩ built
  · simpa using recorded
  · intro done before declaration next named accepted
    have added := before.declare_named next named.coherent named.ordered declaration accepted
    refine ⟨before.declare_coherent next declaration named.coherent accepted,
      declare_ordered next declaration named.ordered named.coherent accepted, ?_, ?_, ?_, ?_⟩
    · simp [added.symbols, named.symbols]
    · simp [added.labels, named.labels]
    · intro other member
      rcases List.mem_append.mp member with old | new
      · exact named.valid other old
      · rw [List.mem_singleton.mp new]
        exact added.valid
    · refine List.pairwise_append.mpr ⟨named.backward, List.pairwise_singleton _ _, ?_⟩
      intro earlier member later new inside
      rw [List.mem_singleton.mp new] at inside
      apply added.fresh
      rw [named.symbols]
      exact List.mem_flatMap.mpr ⟨earlier, member, inside⟩

end Table

section Clashes

variable {t : Table} {declarations : List Declaration}

theorem Declaration.apart_self (declaration : Declaration)
    (valid : ∀ name ∈ declaration.symbolNames, name ≠ "") : declaration.Apart declaration := by
  cases declaration with
  | constantList names => exact fun present => valid "" present rfl
  | variableList names => exact fun present => valid "" present rfl
  | floating | essential | assumed | proved => exact List.not_mem_nil

-- Every label is apart from the names that were declared before it, so the names behind it decide.
theorem Table.NamedBy.apart (named : t.NamedBy declarations)
    (forward : declarations.Pairwise Declaration.Apart) :
    ∀ s ∈ t.statements, ∀ info ∈ t.symbols, s.label ≠ info.name := by
  have self : ∀ declaration ∈ declarations, declaration.Strange declaration := by
    intro declaration member
    exact and_self_iff.mpr (declaration.apart_self (named.valid declaration member))
  have strange : declarations.Pairwise Declaration.Strange := List.Pairwise.and forward named.backward
  have everywhere := strange.forall_of_forall self
  intro s member info declared same
  have labelled : s.label ∈ declarations.map Declaration.label :=
    named.labels ▸ List.mem_map_of_mem member
  have symbol : info.name ∈ declarations.flatMap Declaration.symbolNames :=
    named.symbols ▸ List.mem_map_of_mem declared
  obtain ⟨declaration, first, label⟩ := List.mem_map.mp labelled
  obtain ⟨other, second, inside⟩ := List.mem_flatMap.mp symbol
  apply (everywhere first second).1
  rwa [label, same]

theorem Table.NamedBy.forward (named : t.NamedBy declarations)
    (apart : ∀ s ∈ t.statements, ∀ info ∈ t.symbols, s.label ≠ info.name) :
    declarations.Pairwise Declaration.Apart := by
  apply List.pairwise_of_forall_mem_list
  intro declaration first other second inside
  have labelled : declaration.label ∈ t.statements.map Statement.label :=
    named.labels ▸ List.mem_map_of_mem first
  have symbol : declaration.label ∈ t.symbols.map SymbolInfo.name :=
    named.symbols ▸ List.mem_flatMap.mpr ⟨other, second, inside⟩
  obtain ⟨s, member, label⟩ := List.mem_map.mp labelled
  obtain ⟨info, declared, name⟩ := List.mem_map.mp symbol
  exact apart s member info declared (label.trans name.symm)

-- A label names a symbol as well exactly when the symbol is declared behind the label.
theorem names_apart_iff (name : String) (built : Table.build name declarations = .ok t) :
    (∀ s ∈ t.statements, ∀ info ∈ t.symbols, s.label ≠ info.name) ↔
      declarations.Pairwise fun earlier later => earlier.label ∉ later.symbolNames := by
  have named := Table.build_named_by name declarations t built
  exact ⟨named.forward, named.apart⟩

theorem Source.names_apart (source : Source) (built : source.build = .ok t) :
    ∀ s ∈ t.statements, ∀ info ∈ t.symbols, s.label ≠ info.name := by
  simp only [Source.build, bind_ok] at built
  obtain ⟨entries, made, built⟩ := built
  split at built
  · rename_i table accepted
    cases built
    have named := Table.build_named_by _ _ t accepted
    have silent : ∀ declaration ∈ entries, declaration.symbolNames = [] := by
      intro declaration member
      have usable := (entries_declared 0 source.statements entries made declaration member).1
      cases declaration <;>
        simp [Declaration.kind, Kind.isHypothesis, Kind.isAssertion, Declaration.symbolNames] at usable ⊢
    have unlabelled : ∀ declaration ∈ source.symbolDeclarations, declaration.label = "" := by
      intro declaration member
      have symbols := source.symbols_declared declaration member
      cases declaration <;> simp [Declaration.kind, Declaration.label] at symbols ⊢
    apply named.apart
    refine List.pairwise_append.mpr ⟨?_, ?_, ?_⟩
    · apply List.pairwise_of_forall_mem_list
      intro declaration first other second inside
      rw [unlabelled declaration first] at inside
      exact named.valid other (List.mem_append_left _ second) "" inside rfl
    · apply List.pairwise_of_forall_mem_list
      intro declaration _ other second inside
      rw [silent other second] at inside
      cases inside
    · intro declaration _ other second inside
      rw [silent other second] at inside
      cases inside
  · cases built

end Clashes

theorem names_apart_iff_sample :
    Table.build "sample" sampleDeclarations = .ok sampleTable ∧
      ((∀ s ∈ sampleTable.statements, ∀ info ∈ sampleTable.symbols, s.label ≠ info.name) ↔
        sampleDeclarations.Pairwise fun earlier later => earlier.label ∉ later.symbolNames) :=
  ⟨sample_built, names_apart_iff "sample" sample_built⟩

def clashingDeclarations : List Declaration :=
  [.constantList ["c"], .variableList ["x"], .floating "w" "c x", .constantList ["w"]]

theorem label_names_symbol : ∃ t, Table.build "clashing" clashingDeclarations = .ok t ∧
    ∃ s ∈ t.statements, ∃ info ∈ t.symbols, s.label = info.name := by
  exact ⟨_, rfl, by decide⟩

end Lemmata
