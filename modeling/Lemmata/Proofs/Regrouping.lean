import Lemmata.Proofs.NameClashes

/-!
Declaring more variables disjoint. Groups that are added to the entry of one statement of a file change
the disjoint pairs of that statement, and nothing else in the table: no other declaration looks at them.
Two variables may stand together afterwards if they could before, or if a new group names both.
-/

set_option autoImplicit false

namespace Lemmata

theorem map_m_total {ε α β : Type} (f : α → Except ε β) (inputs : List α)
    (each : ∀ x ∈ inputs, ∃ y, f x = .ok y) : ∃ outputs, inputs.mapM f = .ok outputs := by
  induction inputs with
  | nil => exact ⟨[], rfl⟩
  | cons x rest ih =>
      obtain ⟨⟨y, first⟩, behind⟩ := List.forall_mem_cons.mp each
      obtain ⟨others, made⟩ := ih behind
      refine ⟨y :: others, ?_⟩
      rw [List.mapM_cons, first, made]
      rfl

def Dependencies.keepApart (dependencies : Dependencies) (further : List (List String)) : Dependencies :=
  { dependencies with disjoint := dependencies.disjoint ++ further }

def Declaration.keepApart (label : String) (further : List (List String)) : Declaration → Declaration
  | .assumed own text dependencies =>
      .assumed own text (if own = label then dependencies.keepApart further else dependencies)
  | .proved own text dependencies proof =>
      .proved own text (if own = label then dependencies.keepApart further else dependencies) proof
  | declaration => declaration

def Entry.keepApart (label : String) (further : List (List String)) (entry : Entry) : Entry :=
  { entry with disjoint := if entry.label = label then entry.disjoint ++ further else entry.disjoint }

def Source.keepApart (source : Source) (label : String) (further : List (List String)) : Source :=
  { source with statements := source.statements.map (Entry.keepApart label further) }

def Source.Groups (source : Source) (group : List String) : Prop :=
  group.Nodup ∧ ∀ name ∈ group, name ∈ source.variableNames

section Entries

variable (label : String) (further : List (List String))

theorem entry_keep_apart (index : Nat) (entry : Entry) :
    (entry.keepApart label further).declaration index =
      (entry.declaration index).map (Declaration.keepApart label further) := by
  obtain ⟨own, kind, formula, hypotheses, optional, disjoint, proof⟩ := entry
  simp only [Entry.declaration, Entry.keepApart, Entry.dependencies]
  cases Kind.ofName kind with
  | none => rfl
  | some known =>
      cases known with
      | assumed =>
          by_cases same : own = label <;>
            simp [same, Except.map, Declaration.keepApart, Dependencies.keepApart]
      | proved =>
          by_cases unproved : proof = ""
          · simp [unproved, Except.map]
          · by_cases same : own = label <;>
              simp [unproved, same, Except.map, Declaration.keepApart, Dependencies.keepApart]
      | _ => rfl

theorem entries_keep_apart (index : Nat) (entries : List Entry) :
    Entry.declarations index (entries.map (Entry.keepApart label further)) =
      (Entry.declarations index entries).map (List.map (Declaration.keepApart label further)) := by
  induction entries generalizing index with
  | nil => rfl
  | cons entry rest ih =>
      simp only [List.map_cons, Entry.declarations, entry_keep_apart, ih]
      cases entry.declaration index with
      | error cause => rfl
      | ok first => cases Entry.declarations (index + 1) rest <;> rfl

theorem keep_apart_other (declaration : Declaration) (other : declaration.label ≠ label) :
    declaration.keepApart label further = declaration := by
  cases declaration with
  | assumed own text dependencies =>
      exact congrArg (Declaration.assumed own text) (if_neg other)
  | proved own text dependencies proof =>
      exact congrArg (Declaration.proved own text · proof) (if_neg other)
  | _ => rfl

end Entries

def Statement.regrouped (label : String) (disjoint optionalDisjoint : List Pair) (s : Statement) : Statement :=
  if s.label = label then { s with frame := { s.frame with disjoint, optionalDisjoint } } else s

section Regrouped

variable (label : String) (disjoint optionalDisjoint : List Pair)

theorem Statement.regrouped_other (s : Statement) (other : s.label ≠ label) :
    s.regrouped label disjoint optionalDisjoint = s := if_neg other

theorem Statement.regrouped_revision :
    Statement.Revision (Statement.regrouped label disjoint optionalDisjoint) := by
  constructor <;> intro s <;> unfold Statement.regrouped <;> split <;> rfl

theorem Table.regrouped_absent (t : Table) (absent : ∀ s ∈ t.statements, s.label ≠ label) :
    t.revised (Statement.regrouped label disjoint optionalDisjoint) = t := by
  have same : t.statements.map (Statement.regrouped label disjoint optionalDisjoint) = t.statements := by
    conv_rhs => rw [← List.map_id t.statements]
    exact List.map_congr_left fun s member => s.regrouped_other label _ _ (absent s member)
  rw [Table.revised, same]

end Regrouped

namespace Table

variable {t : Table} {label : String} {further : List (List String)}

def Groups (t : Table) (group : List String) : Prop :=
  group.Nodup ∧ ∀ name ∈ group, ∃ x, t.symbol name = some x ∧ t.isVariable x = true

theorem later_pairs_distinct (vars : List Symbol) (distinct : vars.Nodup) :
    ∀ pair ∈ laterPairs vars, pair.1 ≠ pair.2 := by
  induction vars with
  | nil => simp [laterPairs]
  | cons first rest ih =>
      obtain ⟨fresh, others⟩ := List.nodup_cons.mp distinct
      rintro ⟨x, y⟩ member same
      simp only [laterPairs, List.mem_append, List.mem_map, Prod.mk.injEq] at member
      rcases member with ⟨second, inside, rfl, rfl⟩ | behind
      · exact fresh ((show first = second from same) ▸ inside)
      · exact ih others (x, y) behind same

theorem Groups.accepted (coherent : t.Coherent) (group : List String) (valid : t.Groups group) :
    ∃ pairs, t.groupPairs label group = .ok pairs := by
  obtain ⟨distinct, known⟩ := valid
  have each : ∀ name ∈ group, ∃ x, t.groupVariable label name = .ok x := by
    intro name member
    obtain ⟨x, found, var⟩ := known name member
    exact ⟨x, by simp only [groupVariable, found, var, if_true]⟩
  obtain ⟨vars, grouped⟩ := map_m_total _ group each
  -- Two members for one variable would be one name that the group has twice.
  have names : vars.map t.symbolName = group := by
    have each := (map_m_ok _ _ _).mp grouped
    refine List.forall₂_eq_eq_eq ▸ List.forall₂_map_left_iff.mpr (each.flip.imp fun x name read => ?_)
    exact coherent.name_of_symbol name x (t.group_variable_ok label name x read).1
  have separate : vars.Nodup :=
    List.Pairwise.of_map t.symbolName (fun _ _ apart same => apart (congrArg _ same)) (names ▸ distinct)
  have apart := later_pairs_distinct vars separate
  have unique : (laterPairs vars).find? (fun pair => pair.1 == pair.2) = none := by
    rw [List.find?_eq_none]
    intro pair member
    simpa using apart pair member
  refine ⟨(laterPairs vars).map fun pair => Pair.of pair.1 pair.2, ?_⟩
  rw [groupPairs, bind_ok]
  refine ⟨vars, grouped, ?_⟩
  simp only [unique]
  rfl

theorem frame_regrouped (coherent : t.Coherent) (valid : ∀ group ∈ further, t.Groups group) (formula : Formula)
    (dependencies : Dependencies) (frame : Frame)
    (accepted : t.frameOf label formula dependencies = .ok frame) :
    ∃ disjoint optionalDisjoint, t.frameOf label formula (dependencies.keepApart further) =
        .ok { frame with disjoint, optionalDisjoint } ∧
      ∀ x y, Frame.allowsDisjoint { frame with disjoint, optionalDisjoint } x y = true ↔
        frame.allowsDisjoint x y = true ∨ x ≠ y ∧ t.Together further x y := by
  have permitted := t.frame_pairs_iff label formula dependencies frame accepted
  obtain ⟨pairs, grouped⟩ := map_m_total (t.groupPairs label) further
    fun group member => (valid group member).accepted coherent group
  simp only [frameOf, bind_ok, pure_ok] at accepted
  obtain ⟨⟨required, vars⟩, needed, optional, allowed, _, checked, groups, before, rfl⟩ := accepted
  have more : (dependencies.disjoint ++ further).mapM (t.groupPairs label) = .ok (groups ++ pairs) := by
    rw [List.mapM_append, before, grouped]
    rfl
  obtain ⟨disjoint, optionalDisjoint, made⟩ : ∃ disjoint optionalDisjoint,
      t.frameOf label formula (dependencies.keepApart further) =
        .ok { required, optional, vars, disjoint, optionalDisjoint } := by
    simp only [frameOf, bind_ok, pure_ok]
    exact ⟨_, _, ⟨required, vars⟩, needed, optional, allowed, _, checked, groups ++ pairs, more, rfl⟩
  refine ⟨disjoint, optionalDisjoint, made, fun x y => ?_⟩
  rw [t.frame_pairs_iff label formula _ _ made, permitted]
  simp only [Dependencies.keepApart, Together, List.mem_append, or_and_right, exists_or, and_or_left]

def Regroups (t : Table) (label : String) (further : List (List String))
    (disjoint optionalDisjoint : List Pair) : Prop :=
  ∀ s ∈ t.statements, s.label = label → s.isAssertion = true → ∀ x y,
    (s.regrouped label disjoint optionalDisjoint).frame.allowsDisjoint x y = true ↔
      s.frame.allowsDisjoint x y = true ∨ x ≠ y ∧ t.Together further x y

structure Labelled (t : Table) (declaration : Declaration) (next : Table) (s : Statement) : Prop where
  statements : next.statements = t.statements ++ [s]
  symbols : next.symbols = t.symbols
  label : s.label = declaration.label
  kind : s.kind = declaration.kind
  plain : s.kind.isHypothesis = true → s.frame = {}
  fresh : ∀ other ∈ t.statements, other.label ≠ declaration.label

theorem declare_labelled (declaration : Declaration) (next : Table)
    (usable : declaration.kind.isHypothesis = true ∨ declaration.kind.isAssertion = true)
    (accepted : t.declare declaration = .ok next) : ∃ s, t.Labelled declaration next s := by
  have fresh : ∀ label, t.checkLabel label = .ok () → ∀ other ∈ t.statements, other.label ≠ label := by
    intro label checked
    obtain ⟨nonempty, _, missing, _⟩ := t.check_label_ok label checked
    exact t.lookup_none label nonempty missing
  cases declaration with
  | constantList names => simp [Declaration.kind, Kind.isHypothesis, Kind.isAssertion] at usable
  | variableList names => simp [Declaration.kind, Kind.isHypothesis, Kind.isAssertion] at usable
  | floating own text =>
      simp only [declare, bind_ok] at accepted
      obtain ⟨_, checked, _, _, accepted⟩ := accepted
      split at accepted
      · split at accepted
        · cases accepted
          exact ⟨_, rfl, rfl, rfl, rfl, fun _ => rfl, fresh own checked⟩
        · cases accepted
      · cases accepted
  | essential own text =>
      simp only [declare, bind_ok, pure_ok] at accepted
      obtain ⟨_, checked, _, _, rfl⟩ := accepted
      exact ⟨_, rfl, rfl, rfl, rfl, fun _ => rfl, fresh own checked⟩
  | assumed own text dependencies =>
      simp only [declare, declareAssertion, bind_ok, pure_ok] at accepted
      obtain ⟨_, checked, _, _, _, _, rfl⟩ := accepted
      exact ⟨_, rfl, rfl, rfl, rfl, by simp [Kind.isHypothesis], fresh own checked⟩
  | proved own text dependencies proof =>
      simp only [declare, declareAssertion, bind_ok, pure_ok] at accepted
      obtain ⟨_, checked, _, _, _, _, rfl⟩ := accepted
      exact ⟨_, rfl, rfl, rfl, rfl, by simp [Kind.isHypothesis], fresh own checked⟩

theorem declare_own (coherent : t.Coherent) (valid : ∀ group ∈ further, t.Groups group)
    (declaration : Declaration) (next : Table) (own : declaration.label = label)
    (asserted : declaration.kind.isAssertion = true) (accepted : t.declare declaration = .ok next) :
    ∃ disjoint optionalDisjoint, t.declare (declaration.keepApart label further) =
        .ok (next.revised (Statement.regrouped label disjoint optionalDisjoint)) ∧
      next.Regroups label further disjoint optionalDisjoint := by
  have usable := Or.inr (a := declaration.kind.isHypothesis = true) asserted
  have assertion : ∀ kind text dependencies proof,
      t.declareAssertion label kind text dependencies proof = .ok next →
      (∀ other ∈ t.statements, other.label ≠ label) →
      ∃ disjoint optionalDisjoint,
        t.declareAssertion label kind text (dependencies.keepApart further) proof =
          .ok (next.revised (Statement.regrouped label disjoint optionalDisjoint)) ∧
        next.Regroups label further disjoint optionalDisjoint := by
    intro kind text dependencies proof made fresh
    simp only [declareAssertion, bind_ok, pure_ok] at made ⊢
    obtain ⟨checked, clear, formula, read, frame, framed, rfl⟩ := made
    obtain ⟨disjoint, optionalDisjoint, again, permitted⟩ :=
      frame_regrouped coherent valid formula dependencies frame framed
    refine ⟨disjoint, optionalDisjoint, ⟨checked, clear, formula, read, _, again, ?_⟩, ?_⟩
    · have pushed : (t.push label kind formula frame proof).revised
            (Statement.regrouped label disjoint optionalDisjoint) =
          (t.revised (Statement.regrouped label disjoint optionalDisjoint)).push label kind formula
            { frame with disjoint, optionalDisjoint } proof :=
        t.push_revised _ _ _ _ _ _ _ (if_pos rfl)
      rw [pushed, t.regrouped_absent label _ _ fresh]
    · intro s member same _ x y
      simp only [push, List.mem_append, List.mem_singleton] at member
      rcases member with old | rfl
      · exact absurd same (fresh s old)
      · rw [Statement.regrouped, if_pos rfl]
        exact permitted x y
  obtain ⟨_, labelled⟩ := declare_labelled declaration next usable accepted
  have fresh := own ▸ labelled.fresh
  cases declaration with
  | assumed name text dependencies =>
      obtain rfl : name = label := own
      rw [Declaration.keepApart, if_pos rfl]
      exact assertion _ text dependencies "" accepted fresh
  | proved name text dependencies proof =>
      obtain rfl : name = label := own
      rw [Declaration.keepApart, if_pos rfl]
      exact assertion _ text dependencies proof accepted fresh
  | _ => cases asserted

theorem declare_own_hypothesis (declaration : Declaration) (next : Table) (own : declaration.label = label)
    (hypothesis : declaration.kind.isHypothesis = true) (accepted : t.declare declaration = .ok next) :
    next.revised (Statement.regrouped label [] []) = next ∧ next.Regroups label further [] [] := by
  obtain ⟨s, labelled⟩ := declare_labelled declaration next (Or.inl hypothesis) accepted
  have supposed : s.isHypothesis = true := by
    rw [Statement.isHypothesis, labelled.kind]
    exact hypothesis
  have members : ∀ other ∈ next.statements, other.label ≠ label ∨ other = s := by
    intro other member
    rw [labelled.statements, List.mem_append, List.mem_singleton] at member
    exact member.imp_left (own ▸ labelled.fresh other)
  refine ⟨?_, ?_⟩
  · have kept : next.statements.map (Statement.regrouped label [] []) = next.statements := by
      conv_rhs => rw [← List.map_id next.statements]
      refine List.map_congr_left fun other member => ?_
      rcases members other member with different | rfl
      · exact other.regrouped_other label _ _ different
      · have bare := labelled.plain supposed
        unfold Statement.regrouped
        rw [bare]
        split
        · exact congrArg (fun frame => { other with frame := frame }) bare.symm
        · rfl
    rw [revised, kept]
  · intro other member named claimed
    rcases members other member with different | rfl
    · exact absurd named different
    · rw [other.hypothesis_not_assertion supposed] at claimed
      cases claimed

-- The two tables differ in the pairs of one statement from its declaration on, and up to there in nothing.
theorem declare_regrouped (coherent : t.Coherent) (valid : ∀ group ∈ further, t.Groups group)
    (declaration : Declaration) (next : Table)
    (usable : declaration.kind.isHypothesis = true ∨ declaration.kind.isAssertion = true)
    (accepted : t.declare declaration = .ok next) (disjoint optionalDisjoint : List Pair)
    (regroups : t.Regroups label further disjoint optionalDisjoint) :
    ∃ disjoint' optionalDisjoint',
      (t.revised (Statement.regrouped label disjoint optionalDisjoint)).declare
          (declaration.keepApart label further) =
        .ok (next.revised (Statement.regrouped label disjoint' optionalDisjoint')) ∧
      next.Regroups label further disjoint' optionalDisjoint' := by
  obtain ⟨s, labelled⟩ := declare_labelled declaration next usable accepted
  by_cases own : declaration.label = label
  · rw [t.regrouped_absent label _ _ (own ▸ labelled.fresh)]
    by_cases asserted : declaration.kind.isAssertion = true
    · exact declare_own coherent valid declaration next own asserted accepted
    · have hypothesis := usable.resolve_right asserted
      have same : declaration.keepApart label further = declaration := by
        cases declaration <;> first | rfl | cases hypothesis
      obtain ⟨fixed, regrouped⟩ := declare_own_hypothesis declaration next own hypothesis accepted
      exact ⟨[], [], by rw [same, fixed]; exact accepted, regrouped⟩
  · refine ⟨disjoint, optionalDisjoint, ?_, ?_⟩
    · rw [keep_apart_other label further declaration own]
      refine t.declare_revised (Statement.regrouped_revision label _ _) declaration next accepted ?_
      intro other made
      obtain rfl : s = other := by simpa [labelled.statements] using made
      exact s.regrouped_other label _ _ (labelled.label ▸ own)
    · intro other member named claimed
      rw [labelled.statements, List.mem_append, List.mem_singleton] at member
      rcases member with old | rfl
      · have together : next.Together further = t.Together further := by
          funext x y
          simp only [Together, Table.symbol, labelled.symbols]
        rw [together]
        exact regroups other old named claimed
      · exact absurd (labelled.label.symm.trans named) own

theorem entries_symbols (declarations : List Declaration)
    (usable : ∀ declaration ∈ declarations,
      declaration.kind.isHypothesis = true ∨ declaration.kind.isAssertion = true)
    (start final : Table) (finished : declarations.foldlM declare start = .ok final) :
    final.symbols = start.symbols := by
  induction declarations generalizing start with
  | nil =>
      cases finished
      rfl
  | cons declaration rest ih =>
      rw [List.foldlM_cons, bind_ok] at finished
      obtain ⟨next, accepted, others⟩ := finished
      obtain ⟨own, behind⟩ := List.forall_mem_cons.mp usable
      obtain ⟨_, labelled⟩ := declare_labelled declaration next own accepted
      exact (ih behind next others).trans labelled.symbols

theorem entries_regrouped (declarations : List Declaration)
    (usable : ∀ declaration ∈ declarations,
      declaration.kind.isHypothesis = true ∨ declaration.kind.isAssertion = true)
    (start final : Table) (coherent : start.Coherent) (valid : ∀ group ∈ further, start.Groups group)
    (disjoint optionalDisjoint : List Pair)
    (regroups : start.Regroups label further disjoint optionalDisjoint)
    (finished : declarations.foldlM declare start = .ok final) :
    ∃ disjoint' optionalDisjoint',
      (declarations.map (Declaration.keepApart label further)).foldlM declare
          (start.revised (Statement.regrouped label disjoint optionalDisjoint)) =
        .ok (final.revised (Statement.regrouped label disjoint' optionalDisjoint')) ∧
      final.Regroups label further disjoint' optionalDisjoint' := by
  induction declarations generalizing start disjoint optionalDisjoint with
  | nil =>
      cases finished
      exact ⟨disjoint, optionalDisjoint, rfl, regroups⟩
  | cons declaration rest ih =>
      rw [List.foldlM_cons, bind_ok] at finished
      obtain ⟨next, accepted, others⟩ := finished
      obtain ⟨own, behind⟩ := List.forall_mem_cons.mp usable
      obtain ⟨_, labelled⟩ := declare_labelled declaration next own accepted
      obtain ⟨disjoint', optionalDisjoint', again, regrouped⟩ := declare_regrouped coherent valid declaration next
        own accepted disjoint optionalDisjoint regroups
      have stillValid : ∀ group ∈ further, next.Groups group := by
        intro group member
        simpa only [Groups, Table.symbol, Table.isVariable, Table.symbolInfo, labelled.symbols] using
          valid group member
      obtain ⟨last, lastOptional, finish, result⟩ := ih behind next
        (start.declare_coherent next declaration coherent accepted) stillValid _ _ regrouped others
      refine ⟨last, lastOptional, ?_, result⟩
      rw [List.map_cons, List.foldlM_cons, again]
      exact finish

theorem Coherent.symbol_of_info (coherent : t.Coherent) (info : SymbolInfo) (member : info ∈ t.symbols) :
    ∃ x, t.symbol info.name = some x ∧ t.symbolInfo x = some info := by
  obtain ⟨index, inside, rfl⟩ := List.mem_iff_getElem.mp member
  have found : t.symbolInfo (index : Int) = some t.symbols[index] := by
    simp [symbolInfo, List.getElem?_eq_getElem inside]
  exact ⟨index, (coherent.symbol_iff _ _).mpr (by rw [found, Option.map_some]), found⟩

end Table

namespace Source

variable {source : Source} {t : Table}

structure Begun (source : Source) (start : Table) : Prop where
  coherent : start.Coherent
  symbols : start.symbols =
    source.constantNames.map (SymbolInfo.mk · .const) ++ source.variableNames.map (SymbolInfo.mk · .var)
  unlabelled : ∀ s ∈ start.statements, s.label = ""

theorem names_begun (start next : Table) (kind : SymbolKind) (declared : Kind) (names : List String)
    (declaration : Declaration) (declares : start.declare declaration = start.declareSymbols kind declared names)
    (coherent : start.Coherent) (unlabelled : ∀ s ∈ start.statements, s.label = "")
    (finished : (if names.isEmpty then [] else [declaration]).foldlM Table.declare start = .ok next) :
    next.Coherent ∧ next.symbols = start.symbols ++ names.map (SymbolInfo.mk · kind) ∧
      ∀ s ∈ next.statements, s.label = "" := by
  cases names with
  | nil =>
      cases finished
      exact ⟨coherent, by simp, unlabelled⟩
  | cons name rest =>
      simp only [List.isEmpty_cons, Bool.false_eq_true, if_false, List.foldlM_cons, List.foldlM_nil,
        bind_ok, pure_ok, exists_eq_right] at finished
      have nextCoherent := start.declare_coherent next declaration coherent finished
      rw [declares] at finished
      simp only [Table.declareSymbols, bind_ok, pure_ok] at finished
      obtain ⟨symbols, added, rfl⟩ := finished
      obtain ⟨rfl, _⟩ := Table.add_symbols_ok kind (name :: rest) start.symbols symbols added coherent.names
      refine ⟨nextCoherent, rfl, fun s member => ?_⟩
      simp only [Table.push, List.mem_append, List.mem_singleton] at member
      rcases member with old | rfl
      · exact unlabelled s old
      · rfl

theorem symbols_begun (start : Table)
    (finished : source.symbolDeclarations.foldlM Table.declare { name := source.name } = .ok start) :
    source.Begun start := by
  rw [symbolDeclarations, List.foldlM_append, bind_ok] at finished
  obtain ⟨between, constants, vars⟩ := finished
  obtain ⟨coherent, symbols, unlabelled⟩ := names_begun { name := source.name } between .const .constantList
    source.constantNames _ rfl ⟨by simp, by simp, List.Pairwise.nil, List.nodup_nil⟩ (by simp) constants
  obtain ⟨startCoherent, startSymbols, startUnlabelled⟩ := names_begun between start .var .variableList
    source.variableNames _ rfl coherent unlabelled vars
  exact ⟨startCoherent, by rw [startSymbols, symbols, List.nil_append], startUnlabelled⟩

theorem built_in_parts (built : source.build = .ok t) : ∃ declarations start,
    Entry.declarations 0 source.statements = .ok declarations ∧ source.Begun start ∧
      source.symbolDeclarations.foldlM Table.declare { name := source.name } = .ok start ∧
      declarations.foldlM Table.declare start = .ok t := by
  simp only [build, bind_ok] at built
  obtain ⟨declarations, entries, built⟩ := built
  split at built
  · rename_i table accepted
    cases built
    rw [Table.build, List.foldlM_append, bind_ok] at accepted
    obtain ⟨start, first, rest⟩ := accepted
    exact ⟨declarations, start, entries, symbols_begun start first, first, rest⟩
  · cases built

theorem symbols_built (built : source.build = .ok t) : t.symbols =
    source.constantNames.map (SymbolInfo.mk · .const) ++ source.variableNames.map (SymbolInfo.mk · .var) := by
  obtain ⟨declarations, start, entries, begun, _, rest⟩ := built_in_parts built
  rw [← begun.symbols]
  exact Table.entries_symbols declarations
    (fun declaration member => (entries_declared 0 source.statements declarations entries declaration member).1)
    start t rest

theorem Begun.groups {start : Table} (begun : source.Begun start) (group : List String)
    (valid : source.Groups group) : start.Groups group := by
  refine ⟨valid.1, fun name member => ?_⟩
  have declared : SymbolInfo.mk name .var ∈ start.symbols := by
    rw [begun.symbols]
    exact List.mem_append_right _ (List.mem_map_of_mem (valid.2 name member))
  obtain ⟨x, found, info⟩ := begun.coherent.symbol_of_info _ declared
  exact ⟨x, found, by simp [Table.isVariable, info]⟩

theorem keep_apart_built (built : source.build = .ok t) (label : String) (nonempty : label ≠ "")
    (further : List (List String)) (valid : ∀ group ∈ further, source.Groups group) :
    ∃ disjoint optionalDisjoint, (source.keepApart label further).build =
        .ok (t.revised (Statement.regrouped label disjoint optionalDisjoint)) ∧
      t.Regroups label further disjoint optionalDisjoint := by
  obtain ⟨declarations, start, entries, begun, first, rest⟩ := built_in_parts built
  have unlabelled : ∀ s ∈ start.statements, s.label ≠ label := by
    intro s member same
    exact nonempty (same.symm.trans (begun.unlabelled s member))
  obtain ⟨disjoint, optionalDisjoint, again, regroups⟩ := Table.entries_regrouped declarations
    (fun declaration member => (entries_declared 0 source.statements declarations entries declaration member).1)
    start t begun.coherent (fun group member => begun.groups group (valid group member)) [] []
    (fun s member same => absurd same (unlabelled s member)) rest
  refine ⟨disjoint, optionalDisjoint, ?_, regroups⟩
  rw [start.regrouped_absent label _ _ unlabelled] at again
  have accepted : Table.build (source.keepApart label further).name
      ((source.keepApart label further).symbolDeclarations ++
        declarations.map (Declaration.keepApart label further)) =
        .ok (t.revised (Statement.regrouped label disjoint optionalDisjoint)) := by
    change (source.symbolDeclarations ++ _).foldlM Table.declare { name := source.name } = _
    rw [List.foldlM_append, first]
    exact again
  have read : Entry.declarations 0 (source.keepApart label further).statements =
      .ok (declarations.map (Declaration.keepApart label further)) := by
    rw [keepApart, entries_keep_apart, entries]
    rfl
  rw [build, bind_ok]
  exact ⟨_, read, by simp only [accepted]; rfl⟩

end Source

end Lemmata
