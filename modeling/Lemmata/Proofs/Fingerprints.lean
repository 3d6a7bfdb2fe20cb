import Lemmata.Engine
import Lemmata.Proofs.Locality
import Lemmata.Proofs.StatementContent
import Lemmata.Source

/-!
What a fingerprint stands for. Two databases whose statements have the same contents up to a theorem
give it the same fingerprint. When the fields of these contents can be told apart, the databases also
agree up to the theorem, and so does its verdict; otherwise a verdict may be taken for another one.
-/

set_option autoImplicit false

namespace Lemmata

-- No text of the statement has a zero character, and no position that it refers to starts with a
-- zero byte.
structure Statement.Delimited (t : Table) (s : Statement) : Prop where
  label : zeroChar ∉ s.label.toList
  symbols : ∀ x ∈ s.formula, zeroChar ∉ (t.symbolName x).toList
  positions : ∀ id ∈ s.frame.required ++ s.frame.optional, id % 256 ≠ 0
  proof : zeroChar ∉ s.proof.toList

instance (t : Table) (s : Statement) : Decidable (s.Delimited t) :=
  decidable_of_iff
    (zeroChar ∉ s.label.toList ∧ (∀ x ∈ s.formula, zeroChar ∉ (t.symbolName x).toList) ∧
      (∀ id ∈ s.frame.required ++ s.frame.optional, id % 256 ≠ 0) ∧ zeroChar ∉ s.proof.toList)
    ⟨fun ⟨label, symbols, positions, proof⟩ => ⟨label, symbols, positions, proof⟩,
      fun ⟨label, symbols, positions, proof⟩ => ⟨label, symbols, positions, proof⟩⟩

section Symbols

variable {t other : Table}

theorem declared_info (x : Int) (declared : t.Declares x) :
    ∃ info, t.symbolInfo x = some info ∧ t.symbols[x.toNat]? = some info ∧ t.symbolName x = info.name := by
  obtain ⟨nonnegative, _⟩ := (t.declares_iff x).mp declared
  have inside : ¬ x < 0 := by omega
  have different : x ≠ separator := by
    rintro rfl
    exact t.separator_undeclared declared
  obtain ⟨info, found⟩ := Option.isSome_iff_exists.mp declared
  refine ⟨info, found, ?_, ?_⟩
  · rw [← found, Table.symbolInfo, if_neg inside]
  · simp only [Table.symbolName, if_neg different, found]

theorem declared_name_valid (ordered : t.Ordered) (x : Symbol) (declared : t.Declares x) :
    isSymbolName (t.symbolName x) = true := by
  obtain ⟨info, _, position, name⟩ := declared_info x declared
  rw [name]
  exact ordered.named info (List.mem_of_getElem? position)

theorem symbol_name_injective (coherent : t.Coherent) (x y : Int) (xDeclared : t.Declares x)
    (yDeclared : t.Declares y) (same : t.symbolName x = t.symbolName y) : x = y := by
  obtain ⟨xInfo, _, xPosition, xName⟩ := declared_info x xDeclared
  obtain ⟨yInfo, _, yPosition, yName⟩ := declared_info y yDeclared
  have names : (t.symbols.map SymbolInfo.name)[x.toNat]? = (t.symbols.map SymbolInfo.name)[y.toNat]? := by
    rw [List.getElem?_map, List.getElem?_map, xPosition, yPosition, Option.map_some, Option.map_some, ← xName,
      ← yName, same]
  obtain ⟨xNonnegative, xBounded⟩ := (t.declares_iff x).mp xDeclared
  obtain ⟨yNonnegative, _⟩ := (t.declares_iff y).mp yDeclared
  have bounded : x.toNat < (t.symbols.map SymbolInfo.name).length := by
    rw [List.length_map]
    omega
  have positions := (List.getElem?_inj bounded coherent.names).mp names
  omega

theorem info_same (x : Symbol) (declared : t.Declares x) (otherDeclared : other.Declares x)
    (name : t.symbolName x = other.symbolName x) (var : t.isVariable x = other.isVariable x) :
    t.symbolInfo x = other.symbolInfo x := by
  obtain ⟨info, found, _, ownName⟩ := declared_info x declared
  obtain ⟨otherInfo, otherFound, _, otherName⟩ := declared_info x otherDeclared
  simp only [Table.isVariable, found, otherFound] at var
  have kind : info.kind = otherInfo.kind := by
    cases first : info.kind <;> cases second : otherInfo.kind <;> simp [first, second] at var ⊢
  rw [found, otherFound]
  congr 1
  cases info
  cases otherInfo
  simp_all

theorem map_same_symbols {α β : Type} (f g : α → β) (left right : List α)
    (same : left.map f = right.map g) (injective : ∀ x ∈ left, ∀ y ∈ right, f x = g y → x = y) :
    left = right := by
  induction left generalizing right with
  | nil =>
      cases right with
      | nil => rfl
      | cons y rest => cases same
  | cons x others ih =>
      cases right with
      | nil => cases same
      | cons y rest =>
          obtain ⟨head, tail⟩ := List.cons.inj same
          have behind := ih rest tail fun a inLeft b inRight =>
            injective a (List.mem_cons_of_mem x inLeft) b (List.mem_cons_of_mem y inRight)
          rw [injective x List.mem_cons_self y List.mem_cons_self head, behind]

end Symbols

theorem filter_split {α : Type} (keep : α → Bool) (left right : List α)
    (kept : ∀ x ∈ left, keep x = true) (dropped : ∀ x ∈ right, keep x = false) :
    (left ++ right).filter keep = left ∧ (left ++ right).filter (fun x => !keep x) = right := by
  rw [List.filter_append, List.filter_append]
  refine ⟨?_, ?_⟩
  · rw [List.filter_eq_self.mpr kept, List.filter_eq_nil_iff.mpr fun x member => by simp [dropped x member],
      List.append_nil]
  · rw [List.filter_eq_nil_iff.mpr fun x member => by simp [kept x member],
      List.filter_eq_self.mpr fun x member => by simp [dropped x member], List.nil_append]

section Frames

variable {t other : Table} {s twin : Statement}

theorem Statement.Framed.split_pairs (framed : s.Framed t) :
    s.frame.pairs.filter (fun p => s.frame.vars.contains p.a && s.frame.vars.contains p.b) =
        s.frame.disjoint ∧
      s.frame.pairs.filter (fun p => !(s.frame.vars.contains p.a && s.frame.vars.contains p.b)) =
        s.frame.optionalDisjoint := by
  apply filter_split
  · intro p member
    simpa using framed.disjoint p member
  · intro p member
    simpa using framed.optionalDisjoint p member

theorem frame_same (framed : s.Framed t) (twinFramed : twin.Framed other)
    (required : s.frame.required = twin.frame.required) (optional : s.frame.optional = twin.frame.optional)
    (vars : s.frame.vars = twin.frame.vars) (pairs : s.frame.pairs = twin.frame.pairs) :
    s.frame = twin.frame := by
  obtain ⟨disjoint, optionalDisjoint⟩ := framed.split_pairs
  obtain ⟨twinDisjoint, twinOptionalDisjoint⟩ := twinFramed.split_pairs
  rw [← pairs, ← vars] at twinDisjoint twinOptionalDisjoint
  have sameDisjoint := disjoint.symm.trans twinDisjoint
  have sameOptional := optionalDisjoint.symm.trans twinOptionalDisjoint
  cases own : s.frame
  cases foreign : twin.frame
  simp_all

end Frames

section Agreement

variable {t other : Table} {limit : Int}

theorem agrees_before (coherent : t.Coherent) : t.AgreesUpTo other (-1) := by
  refine ⟨?_, ?_⟩
  · intro id early
    rw [Table.statement, Table.statement, if_pos (by omega), if_pos (by omega)]
  · rintro x ⟨s, member, early, _⟩
    have bounds := coherent.id_bounds s member
    omega

theorem Table.AgreesUpTo.take_same (agrees : t.AgreesUpTo other limit) (count : Nat)
    (early : count ≤ limit + 1) :
    t.statements.take count = other.statements.take count := by
  apply List.ext_getElem?
  intro position
  rw [List.getElem?_take, List.getElem?_take]
  by_cases inside : position < count
  · rw [if_pos inside, if_pos inside, ← t.statement_at, ← other.statement_at,
      agrees.statements position (by omega)]
  · rw [if_neg inside, if_neg inside]

theorem Statement.Delimited.legible (coherent : t.Coherent) (ordered : t.Ordered) (small : limit < 2 ^ 64)
    (delimited : ∀ s ∈ t.statements, s.id ≤ limit → s.Delimited t) (s : Statement)
    (member : s ∈ t.statements) (early : s.id ≤ limit) : s.Legible t := by
  have own := delimited s member early
  have listable : ∀ id ∈ s.frame.required ++ s.frame.optional, Listable id := by
    intro id present
    cases asserted : s.isAssertion with
    | false =>
        rw [ordered.unframed s member asserted] at present
        cases present
    | true =>
        obtain ⟨h, found, _, before⟩ := (coherent.framed member asserted).usable id present
        have position := t.statement_position id h found
        exact ⟨position.1, by omega, own.positions id present⟩
  have named : ∀ x, t.DeclaredBy s.id x → zeroChar ∉ (t.symbolName x).toList := by
    rintro x ⟨declaring, present, before, _, inside⟩
    exact (delimited declaring present (by omega)).symbols x inside
  refine ⟨own.label, ?_, fun id present => listable id (List.mem_append_left _ present),
    fun id present => listable id (List.mem_append_right _ present), ?_, own.proof⟩
  · apply names_zero_free
    intro name present
    obtain ⟨x, inside, rfl⟩ := List.mem_map.mp present
    exact own.symbols x inside
  · intro p present
    obtain ⟨a, b⟩ := ordered.paired s member p present
    simp only [Table.pairText, String.toList_append, List.mem_append, not_or]
    exact ⟨⟨named p.a a, by decide⟩, named p.b b⟩

theorem same_symbol (agrees : t.AgreesUpTo other limit) (coherent : t.Coherent) (ordered : t.Ordered)
    (x y : Symbol) (xDeclared : t.DeclaredBy limit x) (yDeclared : t.DeclaredBy limit y)
    (same : t.symbolName x = other.symbolName y) : x = y := by
  rw [← shared_name y (agrees.symbols y yDeclared)] at same
  exact symbol_name_injective coherent x y (xDeclared.declares ordered) (yDeclared.declares ordered) same

theorem rendered_names (ordered : t.Ordered) (otherOrdered : other.Ordered) (s twin : Statement)
    (member : s ∈ t.statements) (twinMember : twin ∈ other.statements)
    (rendered : t.render s.formula = other.render twin.formula) :
    s.formula.map t.symbolName = twin.formula.map other.symbolName := by
  have valid : ∀ (table : Table), table.Ordered → ∀ owner ∈ table.statements,
      ∀ name ∈ owner.formula.map table.symbolName, isSymbolName name = true := by
    intro table own owner present name inside
    obtain ⟨x, used, rfl⟩ := List.mem_map.mp inside
    exact declared_name_valid own x ((own.used owner present x used).declares own)
  exact names_injective _ _ (valid t ordered s member) (valid other otherOrdered twin twinMember) rendered

-- The tables agree before the two statements, which stand at the same position and have contents
-- with the same fields.
structure Twins (t other : Table) (s twin : Statement) : Prop where
  coherent : t.Coherent
  ordered : t.Ordered
  otherCoherent : other.Coherent
  otherOrdered : other.Ordered
  agrees : t.AgreesUpTo other (s.id - 1)
  member : s ∈ t.statements
  twinMember : twin ∈ other.statements
  id : s.id = twin.id
  label : s.label = twin.label
  kind : s.kind = twin.kind
  rendered : t.render s.formula = other.render twin.formula
  required : s.frame.required = twin.frame.required
  optional : s.frame.optional = twin.frame.optional
  pairs : s.frame.pairs.map t.pairText = twin.frame.pairs.map other.pairText
  proof : s.proof = twin.proof

namespace Twins

variable {s twin : Statement}

theorem declares (twins : Twins t other s twin) : twin.declaresSymbols = s.declaresSymbols := by
  rw [Statement.declaresSymbols, Statement.declaresSymbols, twins.kind]

theorem asserted (twins : Twins t other s twin) : twin.isAssertion = s.isAssertion := by
  rw [Statement.isAssertion, Statement.isAssertion, twins.kind]

theorem same_of (twins : Twins t other s twin) (formula : s.formula = twin.formula)
    (frame : s.frame = twin.frame) : s = twin := by
  cases s
  cases twin
  rw [Statement.mk.injEq]
  exact ⟨twins.id, twins.label, twins.kind, formula, frame, twins.proof⟩

theorem before (twins : Twins t other s twin) (silent : s.declaresSymbols = false) (x : Symbol)
    (declared : other.DeclaredBy twin.id x) : t.DeclaredBy (s.id - 1) x := by
  apply twins.agrees.declared twins.otherCoherent x
  rw [twins.id]
  exact declared.before twins.otherCoherent twin twins.twinMember (twins.declares.trans silent)

theorem silent_formula (twins : Twins t other s twin) (silent : s.declaresSymbols = false) :
    s.formula = twin.formula := by
  apply map_same_symbols t.symbolName other.symbolName _ _
    (rendered_names twins.ordered twins.otherOrdered s twin twins.member twins.twinMember twins.rendered)
  intro x inside y twinInside same
  have xDeclared := (twins.ordered.used s twins.member x inside).before twins.coherent s twins.member silent
  have yDeclared := twins.before silent y (twins.otherOrdered.used twin twins.twinMember y twinInside)
  exact same_symbol twins.agrees twins.coherent twins.ordered x y xDeclared yDeclared same

theorem silent_pairs (twins : Twins t other s twin) (silent : s.declaresSymbols = false) :
    s.frame.pairs = twin.frame.pairs := by
  apply map_same_symbols t.pairText other.pairText _ _ twins.pairs
  intro p inside q twinInside same
  obtain ⟨pa, pb⟩ := twins.ordered.paired s twins.member p inside
  obtain ⟨qa, qb⟩ := twins.otherOrdered.paired twin twins.twinMember q twinInside
  have chars := congrArg String.toList same
  simp only [Table.pairText, String.toList_append, List.append_assoc] at chars
  obtain ⟨first, second⟩ := separated_parts ' ' _ _ _ _
    (symbol_name_spaceless _ (declared_name_valid twins.ordered p.a (pa.declares twins.ordered)))
    (symbol_name_spaceless _ (declared_name_valid twins.otherOrdered q.a (qa.declares twins.otherOrdered)))
    chars
  have a := same_symbol twins.agrees twins.coherent twins.ordered p.a q.a
    (pa.before twins.coherent s twins.member silent) (twins.before silent q.a qa)
    (String.toList_inj.mp first)
  have b := same_symbol twins.agrees twins.coherent twins.ordered p.b q.b
    (pb.before twins.coherent s twins.member silent) (twins.before silent q.b qb)
    (String.toList_inj.mp second)
  cases p
  cases q
  simp_all

theorem vars (twins : Twins t other s twin) (framed : s.Framed t) (twinFramed : twin.Framed other) :
    s.frame.vars = twin.frame.vars := by
  rw [framed.vars, twinFramed.vars, ← twins.required]
  apply List.filterMap_congr
  intro id needed
  obtain ⟨_, _, _, early⟩ := framed.required id needed
  rw [twins.agrees.statements id (by omega)]

theorem unframed (twins : Twins t other s twin) (asserted : s.isAssertion = false) :
    s.frame = twin.frame := by
  rw [twins.ordered.unframed s twins.member asserted,
    twins.otherOrdered.unframed twin twins.twinMember (twins.asserted.trans asserted)]

theorem silent_same (twins : Twins t other s twin) (silent : s.declaresSymbols = false) : s = twin := by
  apply twins.same_of (twins.silent_formula silent)
  cases asserted : s.isAssertion with
  | false => exact twins.unframed asserted
  | true =>
      have framed := twins.coherent.framed twins.member asserted
      have twinFramed := twins.otherCoherent.framed twins.twinMember (twins.asserted.trans asserted)
      exact frame_same framed twinFramed twins.required twins.optional (twins.vars framed twinFramed)
        (twins.silent_pairs silent)

theorem declaring_formula (twins : Twins t other s twin) (declares : s.declaresSymbols = true) :
    s.formula = twin.formula := by
  have names :=
    rendered_names twins.ordered twins.otherOrdered s twin twins.member twins.twinMember twins.rendered
  have length : s.formula.length = twin.formula.length := by simpa using congrArg List.length names
  obtain ⟨nonnegative, _, position⟩ := t.statement_position s.id s
    (twins.coherent.statement_of_member s twins.member)
  have twinPosition := (other.statement_position twin.id twin
    (twins.otherCoherent.statement_of_member twin twins.twinMember)).2.2
  rw [twins.ordered.declared_next s.id.toNat s position declares,
    twins.otherOrdered.declared_next twin.id.toNat twin twinPosition (twins.declares.trans declares),
    ← twins.id, twins.agrees.take_same s.id.toNat (by omega), length]

theorem same (twins : Twins t other s twin) : s = twin := by
  cases declares : s.declaresSymbols with
  | false => exact twins.silent_same declares
  | true =>
      apply twins.same_of (twins.declaring_formula declares) (twins.unframed ?_)
      cases kind : s.kind <;>
        simp [Statement.declaresSymbols, Statement.isAssertion, kind, Kind.isAssertion] at declares ⊢

theorem declared_same (twins : Twins t other s twin) (declares : s.declaresSymbols = true) (x : Symbol)
    (inside : x ∈ s.formula) : t.symbolInfo x = other.symbolInfo x := by
  have names :=
    rendered_names twins.ordered twins.otherOrdered s twin twins.member twins.twinMember twins.rendered
  have twinInside : x ∈ twin.formula := twins.same ▸ inside
  rw [← twins.same] at names
  apply info_same x ((twins.ordered.used s twins.member x inside).declares twins.ordered)
    ((twins.otherOrdered.used twin twins.twinMember x twinInside).declares twins.otherOrdered)
    (List.map_inj_left.mp names x inside)
  rw [twins.ordered.kinds s twins.member declares x inside, twins.kind,
    twins.otherOrdered.kinds twin twins.twinMember (twins.declares.trans declares) x twinInside]

theorem agrees_next (twins : Twins t other s twin) : t.AgreesUpTo other s.id := by
  refine ⟨?_, ?_⟩
  · intro id early
    by_cases last : id = s.id
    · rw [last, twins.coherent.statement_of_member s twins.member, twins.id,
        twins.otherCoherent.statement_of_member twin twins.twinMember, twins.same]
    · exact twins.agrees.statements id (by omega)
  · rintro x ⟨declaring, member, early, declares, inside⟩
    by_cases last : declaring.id = s.id
    · have found := twins.coherent.statement_of_member declaring member
      rw [last, twins.coherent.statement_of_member s twins.member] at found
      cases found
      exact twins.declared_same declares x inside
    · exact twins.agrees.symbols x ⟨declaring, member, by omega, declares, inside⟩

end Twins

end Agreement

def SameContents (t other : Table) (limit : Int) : Prop :=
  ∀ id ≤ limit,
    (t.statement id).map (Statement.content t) = (other.statement id).map (Statement.content other)

section Contents

variable {t other : Table} {limit : Int}

theorem contents_agree (contents : SameContents t other limit) (coherent : t.Coherent) (ordered : t.Ordered)
    (otherCoherent : other.Coherent) (otherOrdered : other.Ordered) (small : limit < 2 ^ 64)
    (delimited : ∀ s ∈ t.statements, s.id ≤ limit → s.Delimited t)
    (otherDelimited : ∀ s ∈ other.statements, s.id ≤ limit → s.Delimited other) (count : Nat)
    (early : count ≤ limit + 1) (enough : count ≤ t.statements.length) : t.AgreesUpTo other (count - 1) := by
  induction count with
  | zero => exact agrees_before coherent
  | succ count ih =>
      have agrees := ih (by omega) (by omega)
      obtain ⟨s, found⟩ : ∃ s, t.statement count = some s := by
        rw [t.statement_at]
        exact ⟨_, List.getElem?_eq_getElem (by omega)⟩
      have same := contents count (by omega)
      rw [found, Option.map_some] at same
      obtain ⟨twin, twinFound, content⟩ := Option.map_eq_some_iff.mp same.symm
      have id := coherent.statement_id count s found
      have twinId := otherCoherent.statement_id count twin twinFound
      have member := t.member_of_statement count s found
      have twinMember := other.member_of_statement count twin twinFound
      obtain ⟨label, kind, rendered, required, optional, pairs, proof⟩ := content_fields t other s twin
        (Statement.Delimited.legible coherent ordered small delimited s member (by omega))
        (Statement.Delimited.legible otherCoherent otherOrdered small otherDelimited twin twinMember
          (by omega))
        content.symm
      have twins : Twins t other s twin :=
        ⟨coherent, ordered, otherCoherent, otherOrdered, id ▸ agrees, member, twinMember, id.trans twinId.symm,
          label, kind, rendered, required, optional, pairs, proof⟩
      have next := twins.agrees_next
      rw [id] at next
      simpa using next

theorem chain_digests_same (t other : Table) (before : Digest.Bytes) (statements others : List Statement)
    (position : Nat)
    (same : ∀ index ≤ position,
      statements[index]?.map (Statement.content t) = others[index]?.map (Statement.content other)) :
    (chainDigests t before statements)[position]? = (chainDigests other before others)[position]? := by
  induction statements generalizing before others position with
  | nil =>
      cases others with
      | nil => rfl
      | cons twin others => simpa using same 0 (Nat.zero_le position)
  | cons s rest ih =>
      cases others with
      | nil => simpa using same 0 (Nat.zero_le position)
      | cons twin others =>
          have content : s.content t = twin.content other := by simpa using same 0 (Nat.zero_le position)
          simp only [chainDigests, content]
          cases position with
          | zero => simp only [List.getElem?_cons_zero]
          | succ position =>
              simp only [List.getElem?_cons_succ]
              exact ih _ others position fun index bounded => same (index + 1) (Nat.succ_le_succ bounded)

theorem fingerprint_same (contents : SameContents t other limit) (owner twin : Statement)
    (bounds : 0 ≤ owner.id ∧ owner.id ≤ limit) (position : owner.id = twin.id) (checkDisjoint : Bool) :
    { Engine.ofTable t with checkDisjoint }.fingerprintOf owner =
      { Engine.ofTable other with checkDisjoint }.fingerprintOf twin := by
  have digests := chain_digests_same t other (List.replicate 16 0) t.statements other.statements
    owner.id.toNat
    fun index bounded => by
      rw [← t.statement_at, ← other.statement_at]
      exact contents index (by omega)
  simp only [Engine.fingerprintOf, Engine.ofTable, Table.digests, List.getElem?_map, ← position, digests]

end Contents

theorem Source.build_table (source : Source) (t : Table) (built : source.build = .ok t) :
    ∃ declarations, Table.build source.name declarations = .ok t := by
  simp only [Source.build, bind_ok] at built
  obtain ⟨declarations, _, built⟩ := built
  split at built
  · rename_i table accepted
    cases built
    exact ⟨_, accepted⟩
  · cases built

theorem fingerprint_decides_verdict (source otherSource : Source) (t other : Table)
    (built : source.build = .ok t) (otherBuilt : otherSource.build = .ok other) (owner twin : Statement)
    (proved : owner ∈ t.theorems) (twinProved : twin ∈ other.theorems) (position : owner.id = twin.id)
    (contents : SameContents t other owner.id) (small : owner.id < 2 ^ 64)
    (delimited : ∀ s ∈ t.statements, s.id ≤ owner.id → s.Delimited t)
    (otherDelimited : ∀ s ∈ other.statements, s.id ≤ owner.id → s.Delimited other)
    (checkDisjoint : Bool) (inspected : Int) :
    { Engine.ofTable t with checkDisjoint }.fingerprintOf owner =
        { Engine.ofTable other with checkDisjoint }.fingerprintOf twin ∧
      ∃ run twinRun, verify t checkDisjoint inspected owner = .ok run ∧
        verify other checkDisjoint inspected twin = .ok twinRun ∧ run.verdict = twinRun.verdict := by
  obtain ⟨declarations, tableBuilt⟩ := source.build_table t built
  obtain ⟨otherDeclarations, otherTableBuilt⟩ := otherSource.build_table other otherBuilt
  have coherent := Table.build_coherent _ declarations t tableBuilt
  have ordered := Table.build_ordered _ declarations t tableBuilt
  have otherCoherent := Table.build_coherent _ otherDeclarations other otherTableBuilt
  have otherOrdered := Table.build_ordered _ otherDeclarations other otherTableBuilt
  have member := (t.theorem_asserted owner proved).1
  have twinMember := (other.theorem_asserted twin twinProved).1
  have bounds := coherent.id_bounds owner member
  have agrees : t.AgreesUpTo other owner.id := by
    have counted := contents_agree contents coherent ordered otherCoherent otherOrdered small delimited
      otherDelimited (owner.id.toNat + 1) (by omega) (by omega)
    rwa [show ((owner.id.toNat + 1 : Nat) : Int) - 1 = owner.id by omega] at counted
  have same : owner = twin := by
    have found := agrees.statements owner.id (Int.le_refl _)
    rw [coherent.statement_of_member owner member, position,
      otherCoherent.statement_of_member twin twinMember] at found
    exact Option.some.inj found
  obtain ⟨run, twinRun, verified, twinVerified, outline⟩ :=
    verify_alike agrees coherent ordered otherCoherent proved checkDisjoint inspected
  refine ⟨fingerprint_same contents owner twin ⟨bounds.1, Int.le_refl _⟩ position checkDisjoint,
    run, twinRun, verified, same ▸ twinVerified, ?_⟩
  exact ((Run.outline_same run twinRun).mp outline).2.2.2.2.1

def pairedSource (disjoint : List (List String)) (proof : String) (behind : List Entry) : Source where
  name := "paired"
  constantNames := ["c"]
  variableNames := ["x", "y"]
  statements :=
    [{ label := "wx", kind := "floating", formula := "c x" },
      { label := "wy", kind := "floating", formula := "c y" },
      { label := "th", kind := "theorem", formula := "c x", hypotheses := ["wx", "wy"], disjoint, proof }] ++
    behind

def tableOf (source : Source) : Table := source.build.toOption.getD { name := source.name }

def theoremOf (t : Table) : Statement := (t.statement 4).getD ⟨4, "", .constantList, [], {}, ""⟩

def shortSource : Source := pairedSource [["x", "y"]] "wx" []

def longSource : Source :=
  pairedSource [["x", "y"]] "wx" [{ label := "next", kind := "axiom", formula := "c c" }]

theorem fingerprint_decides_verdict_sample :
    shortSource ≠ longSource ∧
      { Engine.ofTable (tableOf shortSource) with checkDisjoint := true }.fingerprintOf
          (theoremOf (tableOf shortSource)) =
        { Engine.ofTable (tableOf longSource) with checkDisjoint := true }.fingerprintOf
          (theoremOf (tableOf longSource)) ∧
      ∃ run twinRun, verify (tableOf shortSource) true (-1) (theoremOf (tableOf shortSource)) = .ok run ∧
        verify (tableOf longSource) true (-1) (theoremOf (tableOf longSource)) = .ok twinRun ∧
        run.verdict = twinRun.verdict := by
  have contents : SameContents (tableOf shortSource) (tableOf longSource) 4 := by
    intro id early
    have written : ∀ s : Statement, s.content (tableOf shortSource) = s.content (tableOf longSource) :=
      fun s => rfl
    rw [Table.statements_agree _ (tableOf longSource) 4 (by decide) id early, funext written]
  exact ⟨by decide, fingerprint_decides_verdict shortSource longSource (tableOf shortSource)
    (tableOf longSource) rfl rfl (theoremOf (tableOf shortSource)) (theoremOf (tableOf longSource))
    (by decide) (by decide) rfl contents (by decide) (by decide) (by decide) true (-1)⟩

-- The proof starts with the bytes of a pair, so that nothing tells it from a proof behind that pair.
def mergedSource : Source := pairedSource [] "x y\x00wx" []

theorem fingerprint_collision :
    shortSource.build = .ok (tableOf shortSource) ∧ mergedSource.build = .ok (tableOf mergedSource) ∧
      theoremOf (tableOf shortSource) ∈ (tableOf shortSource).theorems ∧
      theoremOf (tableOf mergedSource) ∈ (tableOf mergedSource).theorems ∧
      (theoremOf (tableOf shortSource)).id = 4 ∧ (theoremOf (tableOf mergedSource)).id = 4 ∧
      (theoremOf (tableOf shortSource)).label = (theoremOf (tableOf mergedSource)).label ∧
      SameContents (tableOf shortSource) (tableOf mergedSource) 4 ∧
      ∃ run twinRun, verify (tableOf shortSource) true (-1) (theoremOf (tableOf shortSource)) = .ok run ∧
        verify (tableOf mergedSource) true (-1) (theoremOf (tableOf mergedSource)) = .ok twinRun ∧
        run.verdict = .ok ∧ twinRun.verdict = .severe := by
  refine ⟨rfl, rfl, by decide, by decide, rfl, rfl, rfl, ?_, _, _, rfl, rfl, rfl, rfl⟩
  intro id early
  by_cases last : id = 4
  · subst last
    have content : (theoremOf (tableOf shortSource)).content (tableOf shortSource) =
        (theoremOf (tableOf mergedSource)).content (tableOf mergedSource) := by
      simp only [Statement.content, text_bytes_chars]
      decide
    exact congrArg some content
  · have written : ∀ s : Statement, s.content (tableOf shortSource) = s.content (tableOf mergedSource) :=
      fun s => rfl
    rw [Table.statements_agree _ (tableOf mergedSource) 3 (by decide) id (by omega), funext written]

end Lemmata
