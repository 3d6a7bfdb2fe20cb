import Lemmata.Proofs.Building

/-!
Symbols before their use. The statements that declare symbols number them one after the other, and
whatever a statement mentions was declared by a statement that is not behind it.
-/

set_option autoImplicit false

namespace Lemmata

def Statement.declaresSymbols (s : Statement) : Bool :=
  s.kind == .constantList || s.kind == .variableList

def declaredSymbols (statements : List Statement) : List Symbol :=
  statements.flatMap fun s => if s.declaresSymbols then s.formula else []

theorem declared_symbols_snoc (statements : List Statement) (s : Statement) :
    declaredSymbols (statements ++ [s]) =
      declaredSymbols statements ++ if s.declaresSymbols then s.formula else [] := by
  simp [declaredSymbols]

theorem mem_declared_symbols (statements : List Statement) (x : Symbol) :
    x ∈ declaredSymbols statements ↔ ∃ s ∈ statements, s.declaresSymbols = true ∧ x ∈ s.formula := by
  simp only [declaredSymbols, List.mem_flatMap]
  constructor
  · rintro ⟨s, member, inside⟩
    split at inside
    · exact ⟨s, member, by assumption, inside⟩
    · cases inside
  · rintro ⟨s, member, declares, inside⟩
    exact ⟨s, member, by simpa [declares] using inside⟩

theorem range_middle (count : Nat) (before middle behind : List Symbol)
    (same : before ++ (middle ++ behind) = (List.range count).map Int.ofNat) :
    middle = (List.range' before.length middle.length).map Int.ofNat := by
  apply List.ext_getElem (by simp)
  intro index inside _
  have whole : (before ++ (middle ++ behind))[before.length + index]? = some middle[index] := by
    rw [List.getElem?_append_right (by omega), Nat.add_sub_cancel_left, List.getElem?_append_left inside,
      List.getElem?_eq_getElem inside]
  rw [same, List.getElem?_map, Option.map_eq_some_iff] at whole
  obtain ⟨number, found, value⟩ := whole
  have position := (List.getElem?_eq_some_iff.mp found).2
  rw [List.getElem_range] at position
  rw [← value, ← position, List.getElem_map, List.getElem_range', Nat.one_mul]

namespace Table

def DeclaredBy (t : Table) (limit : Int) (x : Symbol) : Prop :=
  ∃ s ∈ t.statements, s.id ≤ limit ∧ s.declaresSymbols = true ∧ x ∈ s.formula

structure Ordered (t : Table) : Prop where
  numbered : declaredSymbols t.statements = (List.range t.symbols.length).map Int.ofNat
  kinds : ∀ s ∈ t.statements, s.declaresSymbols = true → ∀ x ∈ s.formula,
    t.isVariable x = decide (s.kind = .variableList)
  used : ∀ s ∈ t.statements, ∀ x ∈ s.formula, t.DeclaredBy s.id x
  paired : ∀ s ∈ t.statements, ∀ p ∈ s.frame.pairs, t.DeclaredBy s.id p.a ∧ t.DeclaredBy s.id p.b
  unframed : ∀ s ∈ t.statements, s.isAssertion = false → s.frame = {}
  named : ∀ info ∈ t.symbols, isSymbolName info.name = true

theorem DeclaredBy.mono {t : Table} {limit larger : Int} {x : Symbol} (declared : t.DeclaredBy limit x)
    (bound : limit ≤ larger) : t.DeclaredBy larger x := by
  obtain ⟨s, member, early, rest⟩ := declared
  exact ⟨s, member, by omega, rest⟩

theorem DeclaredBy.push {t : Table} {limit : Int} {x : Symbol} (declared : t.DeclaredBy limit x)
    (larger : Table) (grown : t.Extends larger) : larger.DeclaredBy limit x := by
  obtain ⟨s, member, rest⟩ := declared
  exact ⟨s, grown.statements.subset member, rest⟩

variable {t : Table}

theorem Ordered.declared (ordered : t.Ordered) (coherent : t.Coherent) (x : Symbol)
    (declared : t.Declares x) : t.DeclaredBy t.statements.length x := by
  obtain ⟨nonnegative, bounded⟩ := (t.declares_iff x).mp declared
  have inside : x ∈ declaredSymbols t.statements := by
    rw [ordered.numbered]
    exact List.mem_map.mpr ⟨x.toNat, List.mem_range.mpr (by omega), Int.toNat_of_nonneg nonnegative⟩
  obtain ⟨s, member, declares, own⟩ := (mem_declared_symbols _ x).mp inside
  exact ⟨s, member, Int.le_of_lt (coherent.id_bounds s member).2, declares, own⟩

theorem DeclaredBy.declares {limit : Int} {x : Symbol} (declared : t.DeclaredBy limit x)
    (ordered : t.Ordered) : t.Declares x := by
  obtain ⟨s, member, _, declares, own⟩ := declared
  have inside := (mem_declared_symbols _ x).mpr ⟨s, member, declares, own⟩
  rw [ordered.numbered] at inside
  obtain ⟨index, bounded, rfl⟩ := List.mem_map.mp inside
  have position := List.mem_range.mp bounded
  exact (t.declares_iff (Int.ofNat index)).mpr ⟨Int.natCast_nonneg index, Int.ofNat_lt.mpr position⟩

-- What a statement without symbols of its own mentions was declared before it.
theorem DeclaredBy.before {x : Symbol} (coherent : t.Coherent) (s : Statement) (member : s ∈ t.statements)
    (silent : s.declaresSymbols = false) (declared : t.DeclaredBy s.id x) : t.DeclaredBy (s.id - 1) x := by
  obtain ⟨other, present, early, declares, own⟩ := declared
  have different : other.id ≠ s.id := by
    intro same
    have found := coherent.statement_of_member other present
    rw [same, coherent.statement_of_member s member] at found
    cases found
    rw [silent] at declares
    cases declares
  exact ⟨other, present, by omega, declares, own⟩

theorem Ordered.declared_next (ordered : t.Ordered) (position : Nat) (s : Statement)
    (found : t.statements[position]? = some s) (declares : s.declaresSymbols = true) :
    s.formula = (List.range' (declaredSymbols (t.statements.take position)).length s.formula.length).map
      Int.ofNat := by
  obtain ⟨bounded, rfl⟩ := List.getElem?_eq_some_iff.mp found
  have split : t.statements =
      t.statements.take position ++ t.statements[position] :: t.statements.drop (position + 1) := by
    rw [← List.drop_eq_getElem_cons bounded, List.take_append_drop]
  have numbered := ordered.numbered
  rw [split, declaredSymbols, List.flatMap_append, List.flatMap_cons, if_pos declares] at numbered
  exact range_middle t.symbols.length _ _ _ numbered

theorem push_ordered (ordered : t.Ordered) (coherent : t.Coherent) (label : String) (kind : Kind)
    (formula : Formula) (frame : Frame) (proof : String)
    (plain : kind ≠ .constantList ∧ kind ≠ .variableList) (used : ∀ x ∈ formula, t.Declares x)
    (paired : ∀ p ∈ frame.pairs, t.Declares p.a ∧ t.Declares p.b)
    (unframed : kind.isAssertion = false → frame = {}) :
    (t.push label kind formula frame proof).Ordered := by
  have grown := t.push_extends label kind formula frame proof
  have silent :
      (Statement.mk t.statements.length label kind formula frame proof).declaresSymbols = false := by
    simpa [Statement.declaresSymbols] using plain
  refine ⟨?_, ?_, ?_, ?_, ?_, ordered.named⟩
  · simp only [push, declared_symbols_snoc, silent, Bool.false_eq_true, if_false, List.append_nil]
    exact ordered.numbered
  · intro s member declares x own
    rcases List.mem_append.mp member with old | new
    · exact ordered.kinds s old declares x own
    · rw [List.mem_singleton.mp new, silent] at declares
      cases declares
  · intro s member x own
    rcases List.mem_append.mp member with old | new
    · exact (ordered.used s old x own).push _ grown
    · rw [List.mem_singleton.mp new] at own ⊢
      exact (ordered.declared coherent x (used x own)).push _ grown
  · intro s member p own
    rcases List.mem_append.mp member with old | new
    · exact (ordered.paired s old p own).imp (·.push _ grown) (·.push _ grown)
    · rw [List.mem_singleton.mp new] at own ⊢
      exact (paired p own).imp (fun a => (ordered.declared coherent _ a).push _ grown)
        fun b => (ordered.declared coherent _ b).push _ grown
  · intro s member asserted
    rcases List.mem_append.mp member with old | new
    · exact ordered.unframed s old asserted
    · rw [List.mem_singleton.mp new] at asserted ⊢
      exact unframed asserted

theorem add_symbols_named (kind : SymbolKind) (names : List String) (symbols result : List SymbolInfo)
    (accepted : addSymbols kind names symbols = .ok result) : ∀ name ∈ names, isSymbolName name = true := by
  induction names generalizing symbols with
  | nil => simp
  | cons name rest ih =>
      simp only [addSymbols] at accepted
      split at accepted
      · cases accepted
      · rename_i valid
        split at accepted
        · cases accepted
        · exact List.forall_mem_cons.mpr ⟨by simpa using valid, ih _ accepted⟩

theorem added_kind (added : List SymbolInfo) (kind : SymbolKind) (same : ∀ info ∈ added, info.kind = kind)
    (index : Nat) (behind : t.symbols.length ≤ index) (bounded : index < t.symbols.length + added.length) :
    { t with symbols := t.symbols ++ added }.isVariable index = decide (kind = .var) := by
  have position : index - t.symbols.length < added.length := by omega
  have found : (t.symbols ++ added)[index]? = some added[index - t.symbols.length] := by
    rw [List.getElem?_append_right behind, List.getElem?_eq_getElem position]
  have own := same _ (List.getElem_mem position)
  have inside : ¬ (index : Int) < 0 := by omega
  simp only [isVariable, symbolInfo]
  rw [if_neg inside, Int.toNat_natCast, found]
  simp [own, beq_eq_decide]

theorem declare_symbols_ordered (next : Table) (ordered : t.Ordered) (coherent : t.Coherent)
    (kind : SymbolKind) (declared : Kind) (names : List String)
    (unlabelled : kind = .const ∧ declared = .constantList ∨ kind = .var ∧ declared = .variableList)
    (accepted : t.declareSymbols kind declared names = .ok next) : next.Ordered := by
  simp only [declareSymbols, bind_ok, pure_ok] at accepted
  obtain ⟨symbols, added, rfl⟩ := accepted
  have valid := add_symbols_named kind names t.symbols symbols added
  obtain ⟨rfl, _⟩ := add_symbols_ok kind names t.symbols symbols added coherent.names
  set formula := (List.range' t.symbols.length names.length).map Int.ofNat with shape
  set wider : Table := { t with symbols := t.symbols ++ names.map (SymbolInfo.mk · kind) } with wide
  have grown : t.Extends (wider.push "" declared formula) :=
    ⟨List.prefix_append _ _, List.prefix_append _ _⟩
  have loud : (Statement.mk t.statements.length "" declared formula {} "").declaresSymbols = true := by
    rcases unlabelled with ⟨_, rfl⟩ | ⟨_, rfl⟩ <;> rfl
  have own : ∀ x ∈ formula, (wider.push "" declared formula).DeclaredBy t.statements.length x :=
    fun x inside => ⟨_, List.mem_append_right _ (List.mem_singleton_self _), Int.le_refl _, loud, inside⟩
  refine ⟨?_, ?_, ?_, ?_, ?_, ?_⟩
  · simp only [push, declared_symbols_snoc]
    have joined := List.range'_append_1 (s := 0) (m := t.symbols.length) (n := names.length)
    rw [Nat.zero_add] at joined
    rw [if_pos loud, ordered.numbered, shape, ← List.map_append, List.range_eq_range', joined,
      List.range_eq_range', List.length_append, List.length_map]
  · intro s member declares x inside
    rcases List.mem_append.mp member with old | new
    · rw [grown.isVariable x ((ordered.used s old x inside).declares ordered)]
      exact ordered.kinds s old declares x inside
    · rw [List.mem_singleton.mp new] at inside ⊢
      obtain ⟨index, range, rfl⟩ := List.mem_map.mp inside
      have bounds := List.mem_range'_1.mp range
      have var : wider.isVariable index = decide (kind = .var) :=
        added_kind (names.map (SymbolInfo.mk · kind)) kind (by simp) index bounds.1 (by simpa using bounds.2)
      refine Eq.trans var ?_
      rcases unlabelled with ⟨rfl, rfl⟩ | ⟨rfl, rfl⟩ <;> rfl
  · intro s member x inside
    rcases List.mem_append.mp member with old | new
    · exact (ordered.used s old x inside).push _ grown
    · rw [List.mem_singleton.mp new] at inside ⊢
      exact own x inside
  · intro s member p inside
    rcases List.mem_append.mp member with old | new
    · exact (ordered.paired s old p inside).imp (·.push _ grown) (·.push _ grown)
    · rw [List.mem_singleton.mp new] at inside
      cases inside
  · intro s member asserted
    rcases List.mem_append.mp member with old | new
    · exact ordered.unframed s old asserted
    · rw [List.mem_singleton.mp new]
  · intro info member
    rcases List.mem_append.mp member with old | new
    · exact ordered.named info old
    · obtain ⟨name, present, rfl⟩ := List.mem_map.mp new
      exact valid name present

theorem later_pairs_member (vars : List Symbol) (x y : Symbol) (later : (x, y) ∈ laterPairs vars) :
    x ∈ vars ∧ y ∈ vars := by
  induction vars with
  | nil => cases later
  | cons first rest ih =>
      simp only [laterPairs, List.mem_append, List.mem_map, Prod.mk.injEq] at later
      rcases later with ⟨other, behind, rfl, rfl⟩ | behind
      · exact ⟨List.mem_cons_self, List.mem_cons_of_mem _ behind⟩
      · exact (ih behind).imp (List.mem_cons_of_mem _) (List.mem_cons_of_mem _)

theorem group_pairs_declared (t : Table) (label : String) (group : List String) (pairs : List Pair)
    (accepted : t.groupPairs label group = .ok pairs) :
    ∀ p ∈ pairs, t.Declares p.a ∧ t.Declares p.b := by
  rw [groupPairs, bind_ok] at accepted
  obtain ⟨vars, grouped, accepted⟩ := accepted
  have declared : ∀ x ∈ vars, t.Declares x := by
    intro x member
    obtain ⟨name, _, found⟩ := map_m_member _ _ _ grouped x member
    unfold groupVariable at found
    split at found
    · rename_i s symbol
      split at found
      · cases found
        exact t.symbol_declared name x symbol
      · cases found
    · cases found
  dsimp only at accepted
  split at accepted
  · cases accepted
  · cases accepted
    intro p member
    obtain ⟨⟨x, y⟩, later, rfl⟩ := List.mem_map.mp member
    obtain ⟨first, second⟩ := later_pairs_member vars x y later
    unfold Pair.of
    split
    · exact ⟨declared y second, declared x first⟩
    · exact ⟨declared x first, declared y second⟩

theorem frame_pairs_declared (t : Table) (label : String) (formula : Formula) (dependencies : Dependencies)
    (frame : Frame) (accepted : t.frameOf label formula dependencies = .ok frame) :
    ∀ p ∈ frame.pairs, t.Declares p.a ∧ t.Declares p.b := by
  simp only [frameOf, bind_ok, pure_ok] at accepted
  obtain ⟨⟨required, vars⟩, _, optional, _, _, _, groups, grouped, rfl⟩ := accepted
  intro p member
  have made : p ∈ groups.flatten.eraseDups := by
    rcases List.mem_append.mp member with required | optional
    · exact List.mem_of_mem_filter required
    · exact List.mem_of_mem_filter optional
  obtain ⟨pairs, present, inside⟩ := List.mem_flatten.mp (List.mem_eraseDups.mp made)
  obtain ⟨group, _, paired⟩ := map_m_member _ _ _ grouped pairs present
  exact t.group_pairs_declared label group pairs paired p inside

theorem declare_assertion_ordered (next : Table) (ordered : t.Ordered) (coherent : t.Coherent)
    (label text proof : String) (kind : Kind) (dependencies : Dependencies)
    (asserted : kind = .assumed ∨ kind = .proved)
    (accepted : t.declareAssertion label kind text dependencies proof = .ok next) : next.Ordered := by
  simp only [declareAssertion, bind_ok, pure_ok] at accepted
  obtain ⟨_, _, formula, parsed, frame, framed, rfl⟩ := accepted
  apply push_ordered ordered coherent
  · rcases asserted with rfl | rfl <;> simp
  · exact (t.check_formula_ok label text formula parsed).declared
  · exact t.frame_pairs_declared label formula dependencies frame framed
  · rcases asserted with rfl | rfl <;> simp [Kind.isAssertion]

theorem declare_ordered (next : Table) (declaration : Declaration) (ordered : t.Ordered)
    (coherent : t.Coherent) (accepted : t.declare declaration = .ok next) : next.Ordered := by
  cases declaration with
  | constantList names =>
      exact declare_symbols_ordered next ordered coherent .const .constantList names (Or.inl ⟨rfl, rfl⟩)
        accepted
  | variableList names =>
      exact declare_symbols_ordered next ordered coherent .var .variableList names (Or.inr ⟨rfl, rfl⟩)
        accepted
  | floating label text =>
      simp only [declare, bind_ok] at accepted
      obtain ⟨_, _, formula, parsed, accepted⟩ := accepted
      split at accepted
      · split at accepted
        · cases accepted
          exact push_ordered ordered coherent label .floating _ {} "" (by simp)
            (t.check_formula_ok label text _ parsed).declared (by simp [Frame.pairs]) fun _ => rfl
        · cases accepted
      · cases accepted
  | essential label text =>
      simp only [declare, bind_ok, pure_ok] at accepted
      obtain ⟨_, _, formula, parsed, rfl⟩ := accepted
      exact push_ordered ordered coherent label .essential formula {} "" (by simp)
        (t.check_formula_ok label text formula parsed).declared (by simp [Frame.pairs]) fun _ => rfl
  | assumed label text dependencies =>
      exact declare_assertion_ordered next ordered coherent label text "" .assumed dependencies
        (Or.inl rfl) accepted
  | proved label text dependencies proof =>
      exact declare_assertion_ordered next ordered coherent label text proof .proved dependencies
        (Or.inr rfl) accepted

theorem build_ordered (name : String) (declarations : List Declaration) (t : Table)
    (built : build name declarations = .ok t) : t.Ordered := by
  have empty : ({ name } : Table).Coherent ∧ ({ name } : Table).Ordered :=
    ⟨⟨by simp, by simp, List.Pairwise.nil, List.nodup_nil⟩,
      ⟨rfl, by simp, by simp, by simp, by simp, by simp⟩⟩
  exact (foldl_m_invariant declare (fun t => t.Coherent ∧ t.Ordered)
    (fun t declaration next before accepted =>
      ⟨t.declare_coherent next declaration before.1 accepted,
        declare_ordered next declaration before.2 before.1 accepted⟩)
    declarations _ t empty built).2

end Table

end Lemmata
