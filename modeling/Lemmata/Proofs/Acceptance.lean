import Lemmata.Proofs.Checks

/-!
Which files have a table. A file is well formed when its symbols are names, each declared once, and every
entry fits what stands before it. This is put in the words of the file alone: its names, its labels and
the words of its formulas. Building accepts a file exactly when the file is well formed.
-/

set_option autoImplicit false

namespace Lemmata

open Text

def Text.blanks : List Char := [' ', '\t', '\r', '\n']

def Text.IsName (marks : List Char) (text : String) : Prop := text ≠ "" ∧ ∀ c ∈ text.toList, c ∉ marks

instance (marks : List Char) (text : String) : Decidable (IsName marks text) :=
  have : Decidable (∀ c ∈ text.toList, c ∉ marks) := List.decidableBAll _ _
  inferInstanceAs (Decidable (_ ∧ _))

def Source.symbolNames (source : Source) : List String := source.constantNames ++ source.variableNames

instance (source : Source) (group : List String) : Decidable (source.Groups group) :=
  inferInstanceAs (Decidable (_ ∧ _))

namespace Entry

def tokens (entry : Entry) : List String := wordNames entry.formula

def Supposes (earlier : List Entry) (label : String) : Prop :=
  ∃ other ∈ earlier, other.label = label ∧ other.kind ∈ ["floating", "essential"]

def Types (earlier : List Entry) (label v : String) : Prop :=
  ∃ other ∈ earlier, other.label = label ∧ other.kind = "floating" ∧ other.tokens.tail = [v]

def Mentions (earlier : List Entry) (entry : Entry) (v : String) : Prop :=
  v ∈ entry.tokens ∨
    ∃ other ∈ earlier, other.label ∈ entry.hypotheses ∧ other.kind = "essential" ∧ v ∈ other.tokens

structure Framed (source : Source) (earlier : List Entry) (entry : Entry) : Prop where
  known : ∀ label ∈ entry.hypotheses ++ entry.optional, Supposes earlier label
  apart : ∀ label ∈ entry.hypotheses, label ∉ entry.optional
  once : entry.hypotheses.Pairwise fun label other =>
    ∀ v ∈ source.variableNames, ¬ (Types earlier label v ∧ Types earlier other v)
  typed : ∀ v ∈ source.variableNames, entry.Mentions earlier v →
    ∃ label ∈ entry.hypotheses, Types earlier label v
  groups : ∀ group ∈ entry.disjoint, source.Groups group

structure Formed (source : Source) (earlier : List Entry) (entry : Entry) : Prop where
  kind : entry.kind ∈ ["floating", "essential", "axiom", "theorem"]
  named : IsName (blanks ++ ['(', ')', '?']) entry.label
  fresh : ∀ other ∈ earlier, other.label ≠ entry.label
  apart : entry.label ∉ source.symbolNames
  declared : ∀ token ∈ entry.tokens, token ∈ source.symbolNames
  headed : ∃ typecode ∈ source.constantNames, entry.tokens.head? = some typecode
  floating : entry.kind = "floating" → ∃ v ∈ source.variableNames, entry.tokens.tail = [v]
  framed : entry.kind ∈ ["axiom", "theorem"] → entry.Framed source earlier
  proved : entry.kind = "theorem" → entry.proof ≠ ""

section Decidable

variable (source : Source) (earlier : List Entry) (entry : Entry) (label v : String)

instance : Decidable (Supposes earlier label) := inferInstanceAs (Decidable (∃ _ ∈ _, _))

instance : Decidable (Types earlier label v) := inferInstanceAs (Decidable (∃ _ ∈ _, _))

instance : Decidable (entry.Mentions earlier v) := inferInstanceAs (Decidable (_ ∨ ∃ _ ∈ _, _))

instance : Decidable (entry.Framed source earlier) :=
  decidable_of_iff (_ ∧ _ ∧ _ ∧ _ ∧ _)
    ⟨fun ⟨known, apart, once, typed, groups⟩ => ⟨known, apart, once, typed, groups⟩,
      fun ⟨known, apart, once, typed, groups⟩ => ⟨known, apart, once, typed, groups⟩⟩

instance : Decidable (entry.Formed source earlier) :=
  decidable_of_iff (_ ∧ _ ∧ _ ∧ _ ∧ _ ∧ _ ∧ _ ∧ _ ∧ _)
    ⟨fun ⟨kind, named, fresh, apart, declared, headed, floating, framed, proved⟩ =>
        ⟨kind, named, fresh, apart, declared, headed, floating, framed, proved⟩,
      fun ⟨kind, named, fresh, apart, declared, headed, floating, framed, proved⟩ =>
        ⟨kind, named, fresh, apart, declared, headed, floating, framed, proved⟩⟩

end Decidable

def relevant (entry : Entry) : Entry :=
  if entry.kind = "theorem" then entry
  else if entry.kind = "axiom" then { entry with proof := "" }
  else { entry with hypotheses := [], optional := [], disjoint := [], proof := "" }

end Entry

namespace Source

structure WellFormed (source : Source) : Prop where
  named : ∀ name ∈ source.symbolNames, IsName blanks name
  distinct : source.symbolNames.Nodup
  formed : ∀ index : Fin source.statements.length,
    source.statements[index].Formed source (source.statements.take index)

instance (source : Source) : Decidable source.WellFormed :=
  decidable_of_iff (_ ∧ _ ∧ _)
    ⟨fun ⟨named, distinct, formed⟩ => ⟨named, distinct, formed⟩,
      fun ⟨named, distinct, formed⟩ => ⟨named, distinct, formed⟩⟩

def relevant (source : Source) : Source :=
  { source with statements := source.statements.map Entry.relevant }

end Source

theorem kind_named_iff (name : String) (kind : Kind) : Kind.ofName name = some kind ↔ kind.name = name := by
  constructor
  · intro found
    simpa using List.find?_some found
  · rintro rfl
    exact kind_of_name kind

theorem hypothesis_named_iff (kind : Kind) :
    kind.isHypothesis = true ↔ kind.name ∈ ["floating", "essential"] := by
  cases kind <;> decide

theorem Text.spacing_iff (c : Char) : isSpacing c = true ↔ c ∈ blanks := by
  simp only [isSpacing, blanks, Bool.or_eq_true, beq_iff_eq, List.mem_cons, List.not_mem_nil, or_false,
    or_assoc]
  tauto

theorem symbol_name_iff (name : String) : isSymbolName name = true ↔ IsName blanks name := by
  simp [isSymbolName, IsName, ← spacing_iff]

theorem label_name_iff (label : String) :
    label ≠ "" ∧ isLabelName label = true ↔ IsName (blanks ++ ['(', ')', '?']) label := by
  simp [isLabelName, IsName, ← spacing_iff, and_assoc]

def Entry.Fits (t : Table) (entry : Entry) (formula : Formula) (frame : Frame) : Kind → Prop
  | .floating => (∃ typecode v, formula = [typecode, v] ∧ t.isVariable v = true) ∧ frame = {}
  | .essential => frame = {}
  | .assumed => t.frameOf entry.label formula entry.dependencies = .ok frame
  | .proved => t.frameOf entry.label formula entry.dependencies = .ok frame ∧ entry.proof ≠ ""
  | _ => False

-- All that an accepted entry does to a table.
structure Entry.Adds (t : Table) (entry : Entry) (kind : Kind) (formula : Formula) (frame : Frame)
    (next : Table) : Prop where
  named : kind.name = entry.kind
  labelled : t.checkLabel entry.label = .ok ()
  read : t.checkFormula entry.label entry.formula = .ok formula
  fits : entry.Fits t formula frame kind
  pushed : next = t.push entry.label kind formula frame (if kind = .proved then entry.proof else "")

theorem entry_declares_iff (t : Table) (entry : Entry) (index : Nat) (next : Table) :
    (∃ declaration, entry.declaration index = .ok declaration ∧ t.declare declaration = .ok next) ↔
      ∃ kind formula frame, entry.Adds t kind formula frame next := by
  constructor
  · rintro ⟨declaration, made, accepted⟩
    unfold Entry.declaration at made
    split at made
    · cases made
    · rename_i known
      cases made
      simp only [Table.declare, bind_ok] at accepted
      obtain ⟨_, label, formula, read, accepted⟩ := accepted
      split at accepted
      · rename_i typecode v
        split at accepted
        · rename_i var
          cases accepted
          exact ⟨.floating, _, {}, (kind_named_iff _ _).mp known, label, read,
            ⟨⟨typecode, v, rfl, var⟩, rfl⟩, rfl⟩
        · cases accepted
      · cases accepted
    · rename_i known
      cases made
      simp only [Table.declare, bind_ok, pure_ok] at accepted
      obtain ⟨_, label, formula, read, rfl⟩ := accepted
      exact ⟨.essential, formula, {}, (kind_named_iff _ _).mp known, label, read, rfl, rfl⟩
    · rename_i known
      cases made
      simp only [Table.declare, Table.declareAssertion, bind_ok, pure_ok] at accepted
      obtain ⟨_, label, formula, read, frame, framed, rfl⟩ := accepted
      exact ⟨.assumed, formula, frame, (kind_named_iff _ _).mp known, label, read, framed, rfl⟩
    · rename_i known
      split at made
      · cases made
      · rename_i written
        cases made
        simp only [Table.declare, Table.declareAssertion, bind_ok, pure_ok] at accepted
        obtain ⟨_, label, formula, read, frame, framed, rfl⟩ := accepted
        exact ⟨.proved, formula, frame, (kind_named_iff _ _).mp known, label, read, ⟨framed, written⟩, rfl⟩
    · cases made
  · rintro ⟨kind, formula, frame, adds⟩
    have known := (kind_named_iff _ _).mpr adds.named
    have fits := adds.fits
    rw [adds.pushed]
    simp only [Entry.declaration, known]
    cases kind with
    | floating =>
        obtain ⟨⟨typecode, v, rfl, var⟩, rfl⟩ := fits
        refine ⟨_, rfl, ?_⟩
        simp only [Table.declare, bind_ok]
        exact ⟨(), adds.labelled, _, adds.read, by simp [var]; rfl⟩
    | essential =>
        cases fits
        refine ⟨_, rfl, ?_⟩
        simp only [Table.declare, bind_ok]
        exact ⟨(), adds.labelled, formula, adds.read, rfl⟩
    | assumed =>
        refine ⟨_, rfl, ?_⟩
        simp only [Table.declare, Table.declareAssertion, bind_ok]
        exact ⟨(), adds.labelled, formula, adds.read, frame, fits, rfl⟩
    | proved =>
        simp only [if_neg fits.2]
        refine ⟨_, rfl, ?_⟩
        simp only [Table.declare, Table.declareAssertion, bind_ok]
        exact ⟨(), adds.labelled, formula, adds.read, frame, fits.1, rfl⟩
    | _ => exact fits.elim

theorem Entry.formed_cons (source : Source) (earlier : List Entry) (entry : Entry) (rest : List Entry) :
    (∀ position : Fin (entry :: rest).length,
      (entry :: rest)[position].Formed source (earlier ++ (entry :: rest).take position)) ↔
      entry.Formed source earlier ∧ ∀ position : Fin rest.length,
        rest[position].Formed source (earlier ++ [entry] ++ rest.take position) := by
  refine Fin.forall_fin_succ.trans ?_
  simp

structure Entry.Makes (t : Table) (entry : Entry) (s : Statement) : Prop where
  labelled : entry.label ≠ ""
  label : s.label = entry.label
  kind : s.kind.name = entry.kind
  formula : s.formula.map t.symbolName = entry.tokens

structure Source.Reached (source : Source) (earlier : List Entry) (t : Table) : Prop where
  coherent : t.Coherent
  symbols : t.symbols =
    source.constantNames.map (SymbolInfo.mk · .const) ++ source.variableNames.map (SymbolInfo.mk · .var)
  made : ∀ entry ∈ earlier, ∃ s ∈ t.statements, entry.Makes t s
  known : ∀ s ∈ t.statements, s.label ≠ "" → ∃ entry ∈ earlier, entry.Makes t s

namespace Source.Reached

variable {source : Source} {earlier : List Entry} {t : Table}

section Symbols

theorem names (reached : source.Reached earlier t) :
    t.symbols.map SymbolInfo.name = source.symbolNames := by
  simp [reached.symbols, symbolNames, Function.comp_def]

theorem kind_iff (reached : source.Reached earlier t) (name : String) (kind : SymbolKind) :
    SymbolInfo.mk name kind ∈ t.symbols ↔
      ∃ x, t.symbol name = some x ∧ t.isVariable x = (kind == .var) := by
  constructor
  · intro member
    obtain ⟨x, found, info⟩ := reached.coherent.symbol_of_info _ member
    exact ⟨x, found, by simp [Table.isVariable, info]⟩
  · rintro ⟨x, found, own⟩
    obtain ⟨⟨_, other⟩, info, rfl⟩ :=
      Option.map_eq_some_iff.mp ((reached.coherent.symbol_iff name x).mp found)
    have same : other = kind := by
      cases other <;> cases kind <;> simp [Table.isVariable, info] at own ⊢
    rw [← same]
    unfold Table.symbolInfo at info
    split at info
    · cases info
    · exact List.mem_of_getElem? info

theorem variable_iff (reached : source.Reached earlier t) (name : String) :
    name ∈ source.variableNames ↔ ∃ x, t.symbol name = some x ∧ t.isVariable x = true := by
  have member : SymbolInfo.mk name .var ∈ t.symbols ↔ name ∈ source.variableNames := by
    simp [reached.symbols]
  rw [← member, reached.kind_iff]
  rfl

theorem constant_iff (reached : source.Reached earlier t) (name : String) :
    name ∈ source.constantNames ↔ ∃ x, t.symbol name = some x ∧ t.isVariable x = false := by
  have member : SymbolInfo.mk name .const ∈ t.symbols ↔ name ∈ source.constantNames := by
    simp [reached.symbols]
  rw [← member, reached.kind_iff]
  rfl

theorem symbol_iff (reached : source.Reached earlier t) (name : String) :
    name ∈ source.symbolNames ↔ ∃ x, t.symbol name = some x := by
  rw [symbolNames, List.mem_append, reached.constant_iff, reached.variable_iff, ← exists_or]
  refine exists_congr fun x => ?_
  rw [← and_or_left]
  simp

theorem groups_iff (reached : source.Reached earlier t) (group : List String) :
    t.Groups group ↔ source.Groups group := by
  simp only [Table.Groups, Source.Groups, reached.variable_iff]

end Symbols

theorem label_iff (reached : source.Reached earlier t) (label : String) :
    t.checkLabel label = .ok () ↔ IsName (blanks ++ ['(', ')', '?']) label ∧
      (∀ other ∈ earlier, other.label ≠ label) ∧ label ∉ source.symbolNames := by
  rw [Table.check_label_iff, reached.names, ← label_name_iff, and_assoc]
  refine and_congr_right fun nonempty => and_congr_right fun _ => and_congr_left fun _ => ⟨?_, ?_⟩
  · intro unused other member
    obtain ⟨s, inside, makes⟩ := reached.made other member
    exact makes.label ▸ unused s inside
  · rintro unused s inside rfl
    obtain ⟨other, member, makes⟩ := reached.known s inside nonempty
    exact unused other member makes.label.symm

section Formulas

theorem words_read (reached : source.Reached earlier t) (label text : String) (formula : Formula)
    (accepted : t.checkFormula label text = .ok formula) : formula.map t.symbolName = wordNames text :=
  reached.coherent.names_of_symbols _ formula ((Table.check_formula_iff label text formula).mp accepted).1

theorem mem_words (reached : source.Reached earlier t) (formula : Formula)
    (declared : ∀ x ∈ formula, t.Declares x) (v : String) (x : Symbol) (found : t.symbol v = some x) :
    v ∈ formula.map t.symbolName ↔ x ∈ formula := by
  constructor
  · intro member
    obtain ⟨y, inside, rfl⟩ := List.mem_map.mp member
    rw [reached.coherent.symbol_of_name y (declared y inside)] at found
    cases found
    exact inside
  · intro inside
    exact List.mem_map.mpr ⟨x, inside, reached.coherent.name_of_symbol v x found⟩

theorem formula_iff (reached : source.Reached earlier t) (label text : String) :
    (∃ formula, t.checkFormula label text = .ok formula) ↔
      (∀ token ∈ wordNames text, token ∈ source.symbolNames) ∧
        ∃ typecode ∈ source.constantNames, (wordNames text).head? = some typecode := by
  constructor
  · rintro ⟨formula, accepted⟩
    have formed := t.check_formula_ok label text formula accepted
    rw [← reached.words_read label text formula accepted]
    constructor
    · intro token member
      obtain ⟨x, inside, rfl⟩ := List.mem_map.mp member
      exact (reached.symbol_iff _).mpr ⟨x, reached.coherent.symbol_of_name x (formed.declared x inside)⟩
    · obtain ⟨head, tail, rfl, const⟩ := formed.headed
      have found := reached.coherent.symbol_of_name head (formed.declared head List.mem_cons_self)
      exact ⟨t.symbolName head, (reached.constant_iff _).mpr ⟨head, found, const⟩, rfl⟩
  · rintro ⟨declared, typecode, constant, first⟩
    obtain ⟨x, found, const⟩ := (reached.constant_iff typecode).mp constant
    obtain ⟨formula, parsed⟩ : ∃ formula, t.parse text = .ok formula := by
      refine map_m_total _ _ fun token member => ?_
      obtain ⟨y, symbol⟩ := (reached.symbol_iff token).mp (declared token member)
      exact ⟨y, by rw [symbol]⟩
    have names := reached.coherent.names_of_symbols _ formula parsed
    refine ⟨formula, (Table.check_formula_iff label text formula).mpr ⟨parsed, ?_⟩⟩
    cases formula with
    | nil => simp [← names] at first
    | cons head tail =>
        have own := (Table.parse_iff text _).mp parsed
        obtain ⟨_, rest, symbol, _, shape⟩ := List.forall₂_cons_right_iff.mp own
        rw [shape] at first
        cases first
        cases symbol.symm.trans found
        exact ⟨x, tail, rfl, const⟩

end Formulas

section Hypotheses

theorem entry_of_label (reached : source.Reached earlier t) (label : String) (s : Statement)
    (found : t.lookup label = some s) : ∃ other ∈ earlier, other.label = label ∧ other.Makes t s := by
  obtain ⟨member, rfl, nonempty⟩ := t.lookup_some label s found
  obtain ⟨other, before, makes⟩ := reached.known s member nonempty
  exact ⟨other, before, makes.label.symm, makes⟩

theorem statement_of_entry (reached : source.Reached earlier t) (other : Entry) (member : other ∈ earlier) :
    ∃ s, t.lookup other.label = some s ∧ other.Makes t s := by
  obtain ⟨s, inside, makes⟩ := reached.made other member
  exact ⟨s, (reached.coherent.lookup_iff _ makes.labelled s).mpr ⟨inside, makes.label⟩, makes⟩

theorem supposes_iff (reached : source.Reached earlier t) (label : String) :
    t.Supposes label ↔ Entry.Supposes earlier label := by
  constructor
  · rintro ⟨h, found, supposed⟩
    obtain ⟨other, member, own, makes⟩ := reached.entry_of_label label h found
    exact ⟨other, member, own, makes.kind ▸ (hypothesis_named_iff h.kind).mp supposed⟩
  · rintro ⟨other, member, rfl, kind⟩
    obtain ⟨h, found, makes⟩ := reached.statement_of_entry other member
    exact ⟨h, found, (hypothesis_named_iff h.kind).mpr (makes.kind ▸ kind)⟩

theorem types_iff (reached : source.Reached earlier t) (label v : String) (x : Symbol)
    (symbol : t.symbol v = some x) : Entry.Types earlier label v ↔ t.typedOf label = some x := by
  constructor
  · rintro ⟨other, member, rfl, kind, words⟩
    obtain ⟨h, found, makes⟩ := reached.statement_of_entry other member
    have floating : h.kind = .floating := kind_name_injective _ _ (makes.kind.trans kind)
    obtain ⟨inside, _⟩ := t.lookup_some _ h found
    obtain ⟨typecode, y, shape, var⟩ := (reached.coherent.formed h inside).floating floating
    have named : t.symbolName y = v := by
      rw [← makes.formula, shape] at words
      simpa using words
    have same := reached.coherent.symbol_of_name y (t.variable_declared y var)
    rw [named, symbol] at same
    cases same
    simp [Table.typed_of_found found, Statement.typedVariable, floating, shape]
  · intro typed
    obtain ⟨h, found, own⟩ := Option.bind_eq_some_iff.mp typed
    obtain ⟨other, member, label, makes⟩ := reached.entry_of_label label h found
    obtain ⟨inside, _⟩ := t.lookup_some _ h found
    have floating : h.kind = .floating := by
      unfold Statement.typedVariable at own
      split at own
      · assumption
      · cases own
    obtain ⟨_, typecode, shape, _⟩ := reached.coherent.floating_formula h.id h x
      (reached.coherent.statement_of_member h inside) own
    refine ⟨other, member, label, by rw [← makes.kind, floating]; rfl, ?_⟩
    rw [← makes.formula, shape]
    simp [reached.coherent.name_of_symbol v x symbol]

theorem typed_variable (reached : source.Reached earlier t) (label : String) (x : Symbol)
    (typed : t.typedOf label = some x) : t.isVariable x = true := by
  obtain ⟨h, found, own⟩ := Option.bind_eq_some_iff.mp typed
  obtain ⟨inside, _⟩ := t.lookup_some _ h found
  exact (reached.coherent.floating_formula h.id h x (reached.coherent.statement_of_member h inside) own).1

theorem variable_name (reached : source.Reached earlier t) (x : Symbol) (var : t.isVariable x = true) :
    t.symbolName x ∈ source.variableNames ∧ t.symbol (t.symbolName x) = some x := by
  have symbol := reached.coherent.symbol_of_name x (t.variable_declared x var)
  exact ⟨(reached.variable_iff _).mpr ⟨x, symbol, var⟩, symbol⟩

theorem once_iff (reached : source.Reached earlier t) (labels : List String) :
    (labels.filterMap t.typedOf).Nodup ↔ labels.Pairwise fun label other =>
      ∀ v ∈ source.variableNames, ¬ (Entry.Types earlier label v ∧ Entry.Types earlier other v) := by
  rw [List.Nodup, List.pairwise_filterMap]
  refine iff_of_eq (congrArg (List.Pairwise · labels) (funext₂ fun label other => propext ⟨?_, ?_⟩))
  · rintro apart v declared ⟨own, same⟩
    obtain ⟨x, symbol, _⟩ := (reached.variable_iff v).mp declared
    exact apart x ((reached.types_iff label v x symbol).mp own) x
      ((reached.types_iff other v x symbol).mp same) rfl
  · rintro apart x own _ same rfl
    obtain ⟨declared, symbol⟩ := reached.variable_name x (reached.typed_variable label x own)
    exact apart _ declared
      ⟨(reached.types_iff label _ x symbol).mpr own, (reached.types_iff other _ x symbol).mpr same⟩

theorem mentions_iff (reached : source.Reached earlier t) (entry : Entry) (formula : Formula)
    (declared : ∀ x ∈ formula, t.Declares x) (words : formula.map t.symbolName = entry.tokens) (v : String)
    (x : Symbol) (symbol : t.symbol v = some x) : entry.Mentions earlier v ↔ x ∈ formula ∨
      ∃ label ∈ entry.hypotheses, ∃ h, t.lookup label = some h ∧ h.kind = .essential ∧ x ∈ h.formula := by
  have formed : ∀ label h, t.lookup label = some h → h.kind = .essential → ∀ y ∈ h.formula, t.Declares y := by
    intro label h found kind
    have supposed : h.isHypothesis = true := by simp [Statement.isHypothesis, Kind.isHypothesis, kind]
    have placed := reached.coherent.statement_of_member h (t.lookup_some label h found).1
    exact (reached.coherent.hypothesis_formed h.id h placed supposed).declared
  rw [Entry.Mentions, ← words, reached.mem_words formula declared v x symbol]
  refine or_congr_right ⟨?_, ?_⟩
  · rintro ⟨other, member, needed, kind, inside⟩
    obtain ⟨h, found, makes⟩ := reached.statement_of_entry other member
    have essential : h.kind = .essential := kind_name_injective _ _ (makes.kind.trans kind)
    rw [← makes.formula] at inside
    exact ⟨_, needed, h, found, essential,
      (reached.mem_words h.formula (formed _ h found essential) v x symbol).mp inside⟩
  · rintro ⟨label, needed, h, found, essential, inside⟩
    obtain ⟨other, member, rfl, makes⟩ := reached.entry_of_label label h found
    refine ⟨other, member, needed, by rw [← makes.kind, essential]; rfl, ?_⟩
    rw [← makes.formula]
    exact (reached.mem_words h.formula (formed _ h found essential) v x symbol).mpr inside

theorem framed_iff (reached : source.Reached earlier t) (entry : Entry) (formula : Formula)
    (declared : ∀ x ∈ formula, t.Declares x) (words : formula.map t.symbolName = entry.tokens) :
    t.Framing formula entry.dependencies ↔ entry.Framed source earlier := by
  constructor
  · intro framing
    refine ⟨fun label member => (reached.supposes_iff label).mp (framing.known label member), framing.apart,
      (reached.once_iff _).mp framing.once, ?_,
      fun group member => (reached.groups_iff group).mp (framing.groups group member)⟩
    intro v member mentioned
    obtain ⟨x, symbol, var⟩ := (reached.variable_iff v).mp member
    obtain ⟨label, needed, typed⟩ :=
      framing.typed x var ((reached.mentions_iff entry formula declared words v x symbol).mp mentioned)
    exact ⟨label, needed, (reached.types_iff label v x symbol).mpr typed⟩
  · intro framed
    refine ⟨fun label member => (reached.supposes_iff label).mpr (framed.known label member), framed.apart,
      (reached.once_iff _).mpr framed.once, ?_,
      fun group member => (reached.groups_iff group).mpr (framed.groups group member)⟩
    intro x var inside
    obtain ⟨member, symbol⟩ := reached.variable_name x var
    obtain ⟨label, needed, typed⟩ :=
      framed.typed _ member ((reached.mentions_iff entry formula declared words _ x symbol).mpr inside)
    exact ⟨label, needed, (reached.types_iff label _ x symbol).mp typed⟩

end Hypotheses

section Entries

variable {entry : Entry}

theorem floating_iff (reached : source.Reached earlier t) (formula : Formula) (formed : formula.Formed t) :
    (∃ typecode v, formula = [typecode, v] ∧ t.isVariable v = true) ↔
      ∃ v ∈ source.variableNames, (formula.map t.symbolName).tail = [v] := by
  constructor
  · rintro ⟨typecode, x, rfl, var⟩
    exact ⟨t.symbolName x, (reached.variable_name x var).1, rfl⟩
  · rintro ⟨v, member, second⟩
    obtain ⟨typecode, tail, rfl, _⟩ := formed.headed
    obtain ⟨x, rfl, rfl⟩ : ∃ x, tail = [x] ∧ t.symbolName x = v := by
      simpa [List.map_eq_singleton_iff] using second
    obtain ⟨y, symbol, var⟩ := (reached.variable_iff _).mp member
    have own := reached.coherent.symbol_of_name x (formed.declared x (by simp))
    cases symbol.symm.trans own
    exact ⟨typecode, x, rfl, var⟩

theorem fits_iff (reached : source.Reached earlier t) (formula : Formula)
    (read : t.checkFormula entry.label entry.formula = .ok formula) (kind : Kind)
    (named : kind.name = entry.kind) :
    (∃ frame, entry.Fits t formula frame kind) ↔
      entry.kind ∈ ["floating", "essential", "axiom", "theorem"] ∧
        (entry.kind = "floating" → ∃ v ∈ source.variableNames, entry.tokens.tail = [v]) ∧
        (entry.kind ∈ ["axiom", "theorem"] → entry.Framed source earlier) ∧
        (entry.kind = "theorem" → entry.proof ≠ "") := by
  have formed := t.check_formula_ok _ _ formula read
  have words : formula.map t.symbolName = entry.tokens := reached.words_read _ _ formula read
  have floating := reached.floating_iff formula formed
  have framed := (Table.frame_of_iff entry.label reached.coherent formula entry.dependencies).trans
    (reached.framed_iff entry formula formed.declared words)
  rw [words] at floating
  rw [← named]
  cases kind with
  | floating => simp [Entry.Fits, Kind.name, floating]
  | essential => simp [Entry.Fits, Kind.name]
  | assumed => simp [Entry.Fits, Kind.name, framed]
  | proved => simp [Entry.Fits, Kind.name, framed]
  | _ => simp [Entry.Fits, Kind.name]

theorem entry_iff (reached : source.Reached earlier t) (index : Nat) :
    (∃ next declaration, entry.declaration index = .ok declaration ∧ t.declare declaration = .ok next) ↔
      entry.Formed source earlier := by
  simp only [entry_declares_iff]
  constructor
  · rintro ⟨next, kind, formula, frame, adds⟩
    obtain ⟨named, fresh, apart⟩ := (reached.label_iff _).mp adds.labelled
    obtain ⟨declared, headed⟩ := (reached.formula_iff _ _).mp ⟨formula, adds.read⟩
    obtain ⟨known, floating, framed, proved⟩ :=
      (reached.fits_iff formula adds.read kind adds.named).mp ⟨frame, adds.fits⟩
    exact ⟨known, named, fresh, apart, declared, headed, floating, framed, proved⟩
  · intro formed
    obtain ⟨kind, named⟩ : ∃ kind : Kind, kind.name = entry.kind := by
      have known := formed.kind
      simp only [List.mem_cons, List.not_mem_nil, or_false] at known
      rcases known with known | known | known | known <;> rw [known]
      exacts [⟨.floating, rfl⟩, ⟨.essential, rfl⟩, ⟨.assumed, rfl⟩, ⟨.proved, rfl⟩]
    have labelled := (reached.label_iff entry.label).mpr ⟨formed.named, formed.fresh, formed.apart⟩
    obtain ⟨formula, read⟩ :=
      (reached.formula_iff entry.label entry.formula).mpr ⟨formed.declared, formed.headed⟩
    obtain ⟨frame, fits⟩ := (reached.fits_iff formula read kind named).mpr
      ⟨formed.kind, formed.floating, formed.framed, formed.proved⟩
    exact ⟨_, kind, formula, frame, named, labelled, read, fits, rfl⟩

theorem step (reached : source.Reached earlier t) (index : Nat) (declaration : Declaration) (next : Table)
    (made : entry.declaration index = .ok declaration) (accepted : t.declare declaration = .ok next) :
    source.Reached (earlier ++ [entry]) next := by
  have coherent := t.declare_coherent next declaration reached.coherent accepted
  obtain ⟨kind, formula, frame, adds⟩ :=
    (entry_declares_iff t entry index next).mp ⟨declaration, made, accepted⟩
  obtain ⟨named, labelled, read, _, rfl⟩ := adds
  have nonempty := ((reached.label_iff entry.label).mp labelled).1.1
  have words := reached.words_read _ _ formula read
  refine ⟨coherent, reached.symbols, ?_, ?_⟩
  · intro other member
    rcases List.mem_append.mp member with old | own
    · obtain ⟨s, inside, makes⟩ := reached.made other old
      exact ⟨s, List.mem_append_left _ inside, makes.labelled, makes.label, makes.kind, makes.formula⟩
    · cases List.mem_singleton.mp own
      exact ⟨_, List.mem_append_right _ (List.mem_singleton_self _), nonempty, rfl, named, words⟩
  · intro s member label
    rcases List.mem_append.mp member with old | own
    · obtain ⟨other, inside, makes⟩ := reached.known s old label
      exact ⟨other, List.mem_append_left _ inside, makes.labelled, makes.label, makes.kind, makes.formula⟩
    · cases List.mem_singleton.mp own
      exact ⟨entry, List.mem_append_right _ (List.mem_singleton_self _), nonempty, rfl, named, words⟩

end Entries

-- The entries that are left are accepted one by one, each behind those that were accepted before it.
theorem entries_iff (reached : source.Reached earlier t) (entries : List Entry) (index : Nat) :
    (∃ final declarations, Entry.declarations index entries = .ok declarations ∧
        declarations.foldlM Table.declare t = .ok final) ↔
      ∀ position : Fin entries.length, entries[position].Formed source (earlier ++ entries.take position) := by
  induction entries generalizing earlier t index with
  | nil => simp [Entry.declarations, pure, Except.pure]
  | cons entry rest ih =>
      have behind : ∀ next declaration, entry.declaration index = .ok declaration →
          t.declare declaration = .ok next → _ :=
        fun next declaration made accepted => ih (reached.step index declaration next made accepted) (index + 1)
      rw [Entry.formed_cons, ← reached.entry_iff index]
      constructor
      · rintro ⟨final, declarations, made, finished⟩
        simp only [Entry.declarations, bind_ok, pure_ok] at made
        obtain ⟨first, own, others, left, rfl⟩ := made
        rw [List.foldlM_cons, bind_ok] at finished
        obtain ⟨next, accepted, finished⟩ := finished
        exact ⟨⟨next, first, own, accepted⟩,
          (behind next first own accepted).mp ⟨final, others, left, finished⟩⟩
      · rintro ⟨⟨next, first, own, accepted⟩, formed⟩
        obtain ⟨final, others, left, finished⟩ := (behind next first own accepted).mpr formed
        refine ⟨final, first :: others, ?_, ?_⟩
        · simp only [Entry.declarations, bind_ok, pure_ok]
          exact ⟨first, own, others, left, rfl⟩
        · rw [List.foldlM_cons, bind_ok]
          exact ⟨next, accepted, finished⟩

end Source.Reached

namespace Source

variable {source : Source}

theorem names_iff (start : Table) (coherent : start.Coherent) (kind : SymbolKind) (declared : Kind)
    (names : List String) (declaration : Declaration)
    (declares : start.declare declaration = start.declareSymbols kind declared names) :
    (∃ next, (if names.isEmpty then [] else [declaration]).foldlM Table.declare start = .ok next) ↔
      (∀ name ∈ names, IsName blanks name) ∧ (start.symbols.map SymbolInfo.name ++ names).Nodup := by
  have added := Table.add_symbols_iff kind names start.symbols coherent.names
  simp only [symbol_name_iff] at added
  rw [← added]
  cases names with
  | nil => simp [Table.addSymbols, pure, Except.pure]
  | cons name rest =>
      simp only [List.isEmpty_cons, Bool.false_eq_true, if_false, List.foldlM_cons, List.foldlM_nil, bind_ok,
        pure_ok, exists_eq_right, declares, Table.declareSymbols]
      constructor
      · rintro ⟨_, symbols, added, _⟩
        exact ⟨symbols, added⟩
      · rintro ⟨symbols, added⟩
        exact ⟨_, symbols, added, rfl⟩

theorem empty_coherent (name : String) : ({ name } : Table).Coherent :=
  ⟨by simp, by simp, List.Pairwise.nil, List.nodup_nil⟩

theorem variables_iff (between : Table)
    (finished : (if source.constantNames.isEmpty then []
      else [Declaration.constantList source.constantNames]).foldlM Table.declare { name := source.name } =
        .ok between) :
    (∃ start, (if source.variableNames.isEmpty then [] else [.variableList source.variableNames]).foldlM
        Table.declare between = .ok start) ↔
      (∀ name ∈ source.variableNames, IsName blanks name) ∧ source.symbolNames.Nodup := by
  obtain ⟨coherent, symbols, _⟩ := names_begun _ between .const .constantList source.constantNames
    (.constantList source.constantNames) rfl (empty_coherent _) (by simp) finished
  have names : between.symbols.map SymbolInfo.name = source.constantNames := by
    simp [symbols, Function.comp_def]
  rw [names_iff between coherent .var .variableList source.variableNames _ rfl, names, symbolNames]

theorem symbols_iff :
    (∃ start, source.symbolDeclarations.foldlM Table.declare { name := source.name } = .ok start) ↔
      (∀ name ∈ source.symbolNames, IsName blanks name) ∧ source.symbolNames.Nodup := by
  have constants := names_iff { name := source.name } (empty_coherent _) .const .constantList
    source.constantNames (.constantList source.constantNames) rfl
  rw [symbolDeclarations, symbolNames, List.forall_mem_append]
  simp only [List.foldlM_append, bind_ok]
  constructor
  · rintro ⟨start, between, first, second⟩
    obtain ⟨vars, distinct⟩ := (variables_iff between first).mp ⟨start, second⟩
    exact ⟨⟨(constants.mp ⟨between, first⟩).1, vars⟩, distinct⟩
  · rintro ⟨⟨names, vars⟩, distinct⟩
    obtain ⟨between, first⟩ := constants.mpr ⟨names, (List.nodup_append.mp distinct).1⟩
    obtain ⟨start, second⟩ := (variables_iff between first).mpr ⟨vars, distinct⟩
    exact ⟨start, between, first, second⟩

theorem Begun.reached {start : Table} (begun : source.Begun start) : source.Reached [] start :=
  ⟨begun.coherent, begun.symbols, by simp,
    fun s member labelled => absurd (begun.unlabelled s member) labelled⟩

theorem build_iff : (∃ t, source.build = .ok t) ↔ ∃ start,
    source.symbolDeclarations.foldlM Table.declare { name := source.name } = .ok start ∧
      ∃ t declarations, Entry.declarations 0 source.statements = .ok declarations ∧
        declarations.foldlM Table.declare start = .ok t := by
  constructor
  · rintro ⟨t, built⟩
    obtain ⟨declarations, start, made, _, begun, finished⟩ := built_in_parts built
    exact ⟨start, begun, t, declarations, made, finished⟩
  · rintro ⟨start, begun, t, declarations, made, finished⟩
    have whole : Table.build source.name (source.symbolDeclarations ++ declarations) = .ok t := by
      rw [Table.build, List.foldlM_append, bind_ok]
      exact ⟨start, begun, finished⟩
    refine ⟨t, ?_⟩
    rw [build, bind_ok]
    exact ⟨declarations, made, by rw [whole]; rfl⟩

end Source

theorem Entry.relevant_declaration (entry : Entry) (index : Nat) :
    entry.relevant.declaration index = entry.declaration index := by
  unfold relevant
  split
  · rfl
  · rename_i unproved
    split
    · rename_i assumed
      have known : Kind.ofName entry.kind = some .assumed := (kind_named_iff _ _).mpr assumed.symm
      simp only [declaration, known, dependencies]
    · rename_i unassumed
      cases known : Kind.ofName entry.kind with
      | none => simp only [declaration, known]
      | some kind =>
          have named := (kind_named_iff _ _).mp known
          cases kind with
          | assumed => exact absurd named.symm unassumed
          | proved => exact absurd named.symm unproved
          | _ => simp only [declaration, known]

theorem Entry.relevant_declarations (entries : List Entry) (index : Nat) :
    declarations index (entries.map relevant) = declarations index entries := by
  induction entries generalizing index with
  | nil => rfl
  | cons entry rest ih => rw [List.map_cons, declarations, declarations, relevant_declaration, ih]

theorem Source.relevant_build (source : Source) : source.relevant.build = source.build := by
  rw [build, build, relevant, Entry.relevant_declarations]
  rfl

-- Building accepts the well-formed files, whatever stands in the fields that do not count for the kind of
-- an entry.
theorem build_iff_well_formed (source : Source) :
    ((∃ t, source.build = .ok t) ↔ source.WellFormed) ∧ source.relevant.build = source.build := by
  refine ⟨?_, source.relevant_build⟩
  rw [Source.build_iff]
  constructor
  · rintro ⟨start, begun, accepted⟩
    obtain ⟨named, distinct⟩ := Source.symbols_iff.mp ⟨start, begun⟩
    have reached := (Source.symbols_begun start begun).reached
    exact ⟨named, distinct, (reached.entries_iff source.statements 0).mp accepted⟩
  · rintro ⟨named, distinct, formed⟩
    obtain ⟨start, begun⟩ := Source.symbols_iff.mpr ⟨named, distinct⟩
    have reached := (Source.symbols_begun start begun).reached
    exact ⟨start, begun, (reached.entries_iff source.statements 0).mpr formed⟩

def repeatingSource : Source where
  name := "repeating"
  constantNames := ["wff", "|-"]
  variableNames := ["x"]
  statements :=
    [{ label := "wx", kind := "floating", formula := "wff x" },
      { label := "twice", kind := "axiom", formula := "|- x", hypotheses := ["wx", "wx"] }]

theorem build_iff_well_formed_samples :
    (∃ t, groupedSource.build = .ok t) ∧ ¬ ∃ t, repeatingSource.build = .ok t := by
  constructor
  · exact (build_iff_well_formed groupedSource).1.mpr (by decide)
  · rw [(build_iff_well_formed repeatingSource).1]
    decide

end Lemmata
