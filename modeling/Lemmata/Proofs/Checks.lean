import Lemmata.Proofs.Regrouping
import Mathlib.Data.List.Nodup

/-!
What the checks of a declaration accept. Each check is put as a condition on the table that it looks at:
which names and labels are free, which texts are formulas, and when an assertion has a frame.
-/

set_option autoImplicit false

namespace Lemmata

open Text

namespace Table

variable {t : Table} (label : String)

theorem add_symbols_iff (kind : SymbolKind) (names : List String) (symbols : List SymbolInfo)
    (distinct : (symbols.map SymbolInfo.name).Nodup) :
    (∃ result, addSymbols kind names symbols = .ok result) ↔
      (∀ name ∈ names, isSymbolName name = true) ∧ (symbols.map SymbolInfo.name ++ names).Nodup := by
  induction names generalizing symbols with
  | nil => simpa [addSymbols] using distinct
  | cons name rest ih =>
      rw [List.forall_mem_cons, addSymbols]
      by_cases valid : isSymbolName name = true
      · by_cases repeated : name ∈ symbols.map SymbolInfo.name
        · have found : (symbols.any fun info => info.name == name) = true := by simpa using repeated
          have clash : ¬ (symbols.map SymbolInfo.name ++ name :: rest).Nodup := by
            rw [List.nodup_append]
            rintro ⟨_, _, apart⟩
            exact apart name repeated name List.mem_cons_self rfl
          simp only [valid, found, Bool.not_true, Bool.false_eq_true, if_false, if_true, reduceCtorEq,
            exists_false, clash, and_false]
        · have fresh : (symbols.any fun info => info.name == name) = false := by simpa using repeated
          have added : ((symbols ++ [SymbolInfo.mk name kind]).map SymbolInfo.name).Nodup := by
            simpa using nodup_snoc distinct repeated
          simpa [valid, fresh] using ih (symbols ++ [SymbolInfo.mk name kind]) added
      · simp [valid]

theorem check_label_iff : t.checkLabel label = .ok () ↔ label ≠ "" ∧ isLabelName label = true ∧
    (∀ s ∈ t.statements, s.label ≠ label) ∧ label ∉ t.symbols.map SymbolInfo.name := by
  constructor
  · intro checked
    obtain ⟨nonempty, plain, missing, absent⟩ := t.check_label_ok label checked
    exact ⟨nonempty, plain, t.lookup_none label nonempty missing, t.symbol_none label absent⟩
  · rintro ⟨nonempty, plain, unused, absent⟩
    have missing : t.lookup label = none := by
      rw [lookup, if_neg nonempty, List.find?_eq_none]
      simpa using unused
    have free : t.symbol label = none := by
      rw [symbol, Option.map_eq_none_iff, List.findIdx?_eq_none_iff]
      simpa using absent
    simp [checkLabel, nonempty, plain, missing, free]

theorem parse_iff (text : String) (formula : Formula) :
    t.parse text = .ok formula ↔
      List.Forall₂ (fun name x => t.symbol name = some x) (wordNames text) formula := by
  rw [parse, symbolsOf, map_m_ok]
  constructor
  · refine fun read => read.imp fun name x found => ?_
    split at found
    · cases found
      assumption
    · cases found
  · exact fun read => read.imp fun name x found => by rw [found]

theorem check_formula_iff (text : String) (formula : Formula) :
    t.checkFormula label text = .ok formula ↔ t.parse text = .ok formula ∧
      ∃ head tail, formula = head :: tail ∧ t.isVariable head = false := by
  constructor
  · intro checked
    have formed := t.check_formula_ok label text formula checked
    refine ⟨?_, formed.headed⟩
    unfold checkFormula at checked
    split at checked
    · cases checked
    · cases checked
    · split at checked
      · cases checked
      · cases checked
        assumption
  · rintro ⟨parsed, head, tail, rfl, const⟩
    simp [checkFormula, parsed, const]

def Supposes (t : Table) (name : String) : Prop := ∃ h, t.lookup name = some h ∧ h.isHypothesis = true

def idOf (t : Table) (name : String) : Option Int := (t.lookup name).map Statement.id

def typedOf (t : Table) (name : String) : Option Symbol := (t.lookup name).bind Statement.typedVariable

theorem id_of_found {name : String} {h : Statement} (found : t.lookup name = some h) :
    t.idOf name = some h.id := by
  rw [idOf, found, Option.map_some]

theorem typed_of_found {name : String} {h : Statement} (found : t.lookup name = some h) :
    t.typedOf name = h.typedVariable := by
  rw [typedOf, found, Option.bind_some]

theorem hypothesis_iff (name : String) (h : Statement) :
    t.hypothesis label name = .ok h ↔ t.lookup name = some h ∧ h.isHypothesis = true := by
  unfold hypothesis
  cases t.lookup name with
  | none => simp
  | some other =>
      by_cases supposed : other.isHypothesis = true
      · simp only [supposed, if_true, Except.ok.injEq, Option.some.injEq, iff_self_and]
        rintro rfl
        exact supposed
      · simp only [if_neg supposed, Option.some.injEq, false_iff, reduceCtorEq]
        rintro ⟨rfl, own⟩
        exact supposed own

theorem required_hypotheses_iff (names : List String) (vars all : List Symbol) (ids : List Int)
    (distinct : vars.Nodup) :
    t.requiredHypotheses label names vars = .ok (ids, all) ↔
      (∀ name ∈ names, t.Supposes name) ∧ ids = names.filterMap t.idOf ∧
        all = vars ++ names.filterMap t.typedOf ∧ all.Nodup := by
  induction names generalizing vars ids with
  | nil =>
      simp only [requiredHypotheses, Except.ok.injEq, Prod.mk.injEq, List.not_mem_nil, false_implies, implies_true,
        true_and, List.filterMap_nil, List.append_nil]
      constructor
      · rintro ⟨rfl, rfl⟩
        exact ⟨rfl, rfl, distinct⟩
      · rintro ⟨rfl, rfl, _⟩
        exact ⟨rfl, rfl⟩
  | cons name rest ih =>
      simp only [requiredHypotheses, bind_ok, hypothesis_iff, List.forall_mem_cons]
      constructor
      · rintro ⟨h, ⟨found, supposed⟩, accepted⟩
        have id := id_of_found found
        have typed := typed_of_found found
        cases own : h.typedVariable with
        | none =>
            simp only [own, bind_ok, pure_ok, Prod.mk.injEq] at accepted
            obtain ⟨⟨others, final⟩, behind, rfl, rfl⟩ := accepted
            obtain ⟨known, rfl, rfl, apart⟩ := (ih vars others distinct).mp behind
            rw [List.filterMap_cons_some id, List.filterMap_cons_none (typed.trans own)]
            exact ⟨⟨⟨h, found, supposed⟩, known⟩, rfl, rfl, apart⟩
        | some v =>
            simp only [own] at accepted
            split at accepted
            · cases accepted
            · rename_i fresh
              simp only [bind_ok, pure_ok, Prod.mk.injEq] at accepted
              obtain ⟨⟨others, final⟩, behind, rfl, rfl⟩ := accepted
              obtain ⟨known, rfl, rfl, apart⟩ :=
                (ih (vars ++ [v]) others (nodup_snoc distinct (by simpa using fresh))).mp behind
              rw [List.filterMap_cons_some id, List.filterMap_cons_some (typed.trans own)]
              exact ⟨⟨⟨h, found, supposed⟩, known⟩, rfl, by simp, apart⟩
      · rintro ⟨⟨⟨h, found, supposed⟩, known⟩, rfl, listed, apart⟩
        have id := id_of_found found
        have typed := typed_of_found found
        rw [List.filterMap_cons_some id]
        refine ⟨h, ⟨found, supposed⟩, ?_⟩
        cases own : h.typedVariable with
        | none =>
            rw [List.filterMap_cons_none (typed.trans own)] at listed
            simp only [bind_ok, pure_ok]
            exact ⟨_, (ih vars _ distinct).mpr ⟨known, rfl, listed, apart⟩, rfl⟩
        | some v =>
            rw [List.filterMap_cons_some (typed.trans own), List.append_cons] at listed
            have once : (vars ++ [v]).Nodup := (List.nodup_append.mp (listed ▸ apart)).1
            have fresh : vars.contains v = false := by
              simpa using fun present => (List.nodup_append.mp once).2.2 v present v (by simp) rfl
            simp only [fresh, Bool.false_eq_true, if_false, bind_ok, pure_ok]
            exact ⟨_, (ih (vars ++ [v]) _ once).mpr ⟨known, rfl, listed, apart⟩, rfl⟩

theorem optional_hypotheses_iff (required : List Int) (names : List String) (ids : List Int) :
    t.optionalHypotheses label required names = .ok ids ↔
      (∀ name ∈ names, t.Supposes name) ∧ ids = names.filterMap t.idOf ∧ ∀ id ∈ ids, id ∉ required := by
  induction names generalizing ids with
  | nil =>
      simp only [optionalHypotheses, Except.ok.injEq, List.not_mem_nil, false_implies, implies_true, true_and,
        List.filterMap_nil]
      constructor
      · rintro rfl
        simp
      · rintro ⟨rfl, _⟩
        rfl
  | cons name rest ih =>
      simp only [optionalHypotheses, bind_ok, hypothesis_iff, List.forall_mem_cons]
      constructor
      · rintro ⟨h, ⟨found, supposed⟩, accepted⟩
        have id := id_of_found found
        split at accepted
        · cases accepted
        · rename_i own
          simp only [bind_ok, pure_ok] at accepted
          obtain ⟨others, behind, rfl⟩ := accepted
          obtain ⟨known, rfl, apart⟩ := (ih others).mp behind
          rw [List.filterMap_cons_some id]
          exact ⟨⟨⟨h, found, supposed⟩, known⟩, rfl, List.forall_mem_cons.mpr ⟨by simpa using own, apart⟩⟩
      · rintro ⟨⟨⟨h, found, supposed⟩, known⟩, rfl, apart⟩
        have id := id_of_found found
        rw [List.filterMap_cons_some id, List.forall_mem_cons] at apart
        rw [List.filterMap_cons_some id]
        refine ⟨h, ⟨found, supposed⟩, ?_⟩
        rw [if_neg (by simpa using apart.1), bind_ok]
        exact ⟨_, (ih _).mpr ⟨known, rfl, apart.2⟩, rfl⟩

theorem check_typed_iff (vars : List Symbol) (scope : Formula) :
    t.checkTyped label vars scope = .ok () ↔ ∀ x ∈ scope, t.isVariable x = true → x ∈ vars := by
  refine ⟨t.check_typed_ok label vars scope, fun typed => ?_⟩
  have nothing : (scope.find? fun s => t.isVariable s && !vars.contains s) = none := by
    rw [List.find?_eq_none]
    intro x member
    simpa using typed x member
  rw [checkTyped, nothing]

theorem nodup_of_later_pairs (vars : List Symbol) (apart : ∀ pair ∈ laterPairs vars, pair.1 ≠ pair.2) :
    vars.Nodup := by
  induction vars with
  | nil => exact List.nodup_nil
  | cons first rest ih =>
      simp only [laterPairs, List.forall_mem_append, List.forall_mem_map] at apart
      exact List.nodup_cons.mpr ⟨fun present => apart.1 first present rfl, ih apart.2⟩

theorem group_accepted_iff (coherent : t.Coherent) (group : List String) :
    (∃ pairs, t.groupPairs label group = .ok pairs) ↔ t.Groups group := by
  refine ⟨?_, fun valid => valid.accepted coherent group⟩
  rintro ⟨pairs, accepted⟩
  rw [groupPairs, bind_ok] at accepted
  obtain ⟨vars, grouped, accepted⟩ := accepted
  dsimp only at accepted
  split at accepted
  · cases accepted
  · rename_i distinct
    have each := (map_m_ok _ _ _).mp grouped
    have symbols : group.map t.symbol = vars.map some := by
      refine List.forall₂_eq_eq_eq ▸ List.forall₂_map_left_iff.mpr (List.forall₂_map_right_iff.mpr ?_)
      exact each.imp fun name x read => (t.group_variable_ok label name x read).1
    have once : vars.Nodup := nodup_of_later_pairs vars (by simpa using List.find?_eq_none.mp distinct)
    refine ⟨List.Nodup.of_map t.symbol ?_, fun name member => ?_⟩
    · rw [symbols]
      exact once.map fun _ _ => Option.some.inj
    · obtain ⟨x, _, read⟩ := map_m_image _ _ _ grouped name member
      exact ⟨x, t.group_variable_ok label name x read⟩

theorem Coherent.id_of_name (coherent : t.Coherent) (name other : String) (id : Int) (own : t.idOf name = some id)
    (same : t.idOf other = some id) : name = other := by
  obtain ⟨h, found, rfl⟩ := Option.map_eq_some_iff.mp own
  obtain ⟨k, otherFound, shared⟩ := Option.map_eq_some_iff.mp same
  obtain ⟨member, label, _⟩ := t.lookup_some name h found
  obtain ⟨otherMember, otherLabel, _⟩ := t.lookup_some other k otherFound
  have one := coherent.statement_of_member k otherMember
  rw [shared, coherent.statement_of_member h member] at one
  cases one
  exact label.symm.trans otherLabel

theorem Coherent.mem_scope (coherent : t.Coherent) (formula : Formula) (names : List String) (x : Symbol) :
    x ∈ t.scopeOf formula (names.filterMap t.idOf) ↔ x ∈ formula ∨
      ∃ name ∈ names, ∃ h, t.lookup name = some h ∧ h.kind = .essential ∧ x ∈ h.formula := by
  simp only [scopeOf, List.mem_append, List.mem_flatMap, List.mem_filterMap, idOf, Option.map_eq_some_iff]
  refine or_congr_right ⟨?_, ?_⟩
  · rintro ⟨_, ⟨name, member, h, found, rfl⟩, inside⟩
    rw [coherent.statement_of_member h (t.lookup_some name h found).1] at inside
    dsimp only at inside
    split at inside
    · rename_i kind
      exact ⟨name, member, h, found, by simpa using kind, inside⟩
    · simp at inside
  · rintro ⟨name, member, h, found, kind, inside⟩
    refine ⟨h.id, ⟨name, member, h, found, rfl⟩, ?_⟩
    simp only [coherent.statement_of_member h (t.lookup_some name h found).1, kind, beq_self_eq_true, if_true,
      inside]

-- What makes a frame of the labels and groups that an assertion lists.
structure Framing (t : Table) (formula : Formula) (dependencies : Dependencies) : Prop where
  known : ∀ name ∈ dependencies.required ++ dependencies.optional, t.Supposes name
  apart : ∀ name ∈ dependencies.required, name ∉ dependencies.optional
  once : (dependencies.required.filterMap t.typedOf).Nodup
  typed : ∀ x, t.isVariable x = true →
    (x ∈ formula ∨ ∃ name ∈ dependencies.required, ∃ h, t.lookup name = some h ∧ h.kind = .essential ∧
      x ∈ h.formula) →
    ∃ name ∈ dependencies.required, t.typedOf name = some x
  groups : ∀ group ∈ dependencies.disjoint, t.Groups group

theorem frame_of_iff (coherent : t.Coherent) (formula : Formula) (dependencies : Dependencies) :
    (∃ frame, t.frameOf label formula dependencies = .ok frame) ↔ t.Framing formula dependencies := by
  simp only [frameOf, bind_ok, pure_ok]
  constructor
  · rintro ⟨frame, ⟨ids, vars⟩, needed, optionalIds, allowed, _, checked, groups, grouped, _⟩
    obtain ⟨required, rfl, rfl, once⟩ := (required_hypotheses_iff label _ [] _ _ List.nodup_nil).mp needed
    obtain ⟨optional, rfl, apart⟩ := (optional_hypotheses_iff label _ _ _).mp allowed
    refine ⟨List.forall_mem_append.mpr ⟨required, optional⟩, ?_, once, ?_, ?_⟩
    · intro name member listed
      obtain ⟨h, found, _⟩ := required name member
      have id := id_of_found found
      exact apart h.id (List.mem_filterMap.mpr ⟨name, listed, id⟩) (List.mem_filterMap.mpr ⟨name, member, id⟩)
    · intro x var inside
      have reached := (coherent.mem_scope formula dependencies.required x).mpr inside
      exact List.mem_filterMap.mp ((check_typed_iff label _ _).mp checked x reached var)
    · intro group member
      obtain ⟨pairs, _, made⟩ := map_m_image _ _ _ grouped group member
      exact (group_accepted_iff label coherent group).mp ⟨pairs, made⟩
  · intro framing
    obtain ⟨required, optional⟩ := List.forall_mem_append.mp framing.known
    have needed := (required_hypotheses_iff label _ [] _ _ List.nodup_nil).mpr
      ⟨required, rfl, rfl, framing.once⟩
    have apart : ∀ id ∈ dependencies.optional.filterMap t.idOf, id ∉ dependencies.required.filterMap t.idOf := by
      intro id listed member
      obtain ⟨name, inside, own⟩ := List.mem_filterMap.mp listed
      obtain ⟨other, needed, same⟩ := List.mem_filterMap.mp member
      exact framing.apart name (coherent.id_of_name other name id same own ▸ needed) inside
    have allowed := (optional_hypotheses_iff label _ _ _).mpr ⟨optional, rfl, apart⟩
    have typed : ∀ x ∈ t.scopeOf formula (dependencies.required.filterMap t.idOf), t.isVariable x = true →
        x ∈ dependencies.required.filterMap t.typedOf := by
      intro x reached var
      exact List.mem_filterMap.mpr (framing.typed x var ((coherent.mem_scope formula _ x).mp reached))
    obtain ⟨groups, grouped⟩ := map_m_total (t.groupPairs label) dependencies.disjoint
      fun group member => (group_accepted_iff label coherent group).mpr (framing.groups group member)
    exact ⟨_, _, needed, _, allowed, (), (check_typed_iff label _ _).mpr typed, groups, grouped, rfl⟩

end Table

end Lemmata
