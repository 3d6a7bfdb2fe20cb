import Lemmata.Proofs.Instance

/-!
The backtracking search is exact. What it finds are the first solutions of an unlimited search;
these are the instances of the scheme, in the order of their window lengths.
-/

set_option autoImplicit false

namespace Lemmata.Matching

-- The windows at the front of an instance with what stands behind each of them. They all start
-- with `taken` and none of them reaches over a separator.
def windows : Formula → Formula → List (Formula × Formula)
  | _, [] => []
  | taken, s :: rest =>
      if s = separator then [] else (taken ++ [s], rest) :: windows (taken ++ [s]) rest

def solutions (t : Table) : Formula → Substitution → Nat → Formula → List Substitution
  | [], bound, _, remaining => if remaining.isEmpty then [bound] else []
  | s :: scheme, bound, start, remaining =>
      if t.isVariable s then
        match bound.lookup s with
        | some value =>
            if value.isPrefixOf remaining then
              solutions t scheme bound (start + value.length) (remaining.drop value.length)
            else []
        | none =>
            (windows [] remaining).flatMap fun cut =>
              solutions t scheme (bound ++ [⟨s, start, cut.1⟩]) (start + cut.1.length) cut.2
      else
        match remaining with
        | [] => []
        | head :: behind =>
            if head = s then solutions t scheme bound (start + 1) behind else []

theorem grow_window_solutions (limit : Nat) (attempt : Formula → Formula → Search → Search)
    (found : Formula → Formula → List Substitution)
    (exact_attempt : ∀ window behind search, search.solutions.length < limit →
      (attempt window behind search).solutions =
        (search.solutions ++ found window behind).take limit)
    (taken remaining : Formula) (search : Search) (room : search.solutions.length < limit) :
    (growWindow limit attempt taken remaining search).solutions =
      (search.solutions ++ (windows taken remaining).flatMap fun cut => found cut.1 cut.2).take
        limit := by
  induction remaining generalizing taken search with
  | nil => simp [growWindow, windows, List.take_of_length_le (Nat.le_of_lt room)]
  | cons s rest ih =>
      by_cases blocked : s = separator
      · simp [growWindow, windows, blocked, List.take_of_length_le (Nat.le_of_lt room)]
      · have tried := exact_attempt (taken ++ [s]) rest search room
        simp only [growWindow, windows, if_neg blocked, List.flatMap_cons]
        by_cases full : limit ≤ (attempt (taken ++ [s]) rest search).solutions.length
        · rw [if_pos full, tried, ← List.append_assoc]
          rw [tried, List.length_take] at full
          exact (List.take_append_of_le_length (Nat.le_min.mp full).2).symm
        · have short : (search.solutions ++ found (taken ++ [s]) rest).length ≤ limit := by
            rw [tried, List.length_take] at full
            exact Nat.le_of_lt (Nat.lt_of_not_le fun long => full (Nat.le_min.mpr ⟨Nat.le_refl _, long⟩))
          have more := ih (taken ++ [s])
            { attempt (taken ++ [s]) rest search with
              backtracks := (attempt (taken ++ [s]) rest search).backtracks + 1 }
            (Nat.lt_of_not_le full)
          rw [if_neg full, more, tried, List.take_of_length_le short, List.append_assoc]

theorem extend_solutions (t : Table) (limit : Nat) (scheme : Formula) (bound : Substitution)
    (start : Nat) (remaining : Formula) (search : Search) (room : search.solutions.length < limit) :
    (extend t limit scheme bound start remaining search).solutions =
      (search.solutions ++ solutions t scheme bound start remaining).take limit := by
  have unchanged : search.solutions = search.solutions.take limit :=
    (List.take_of_length_le (Nat.le_of_lt room)).symm
  induction scheme generalizing bound start remaining search with
  | nil =>
      cases remaining with
      | nil =>
          simp only [extend, solutions, List.isEmpty_nil, if_true]
          rw [List.take_of_length_le]
          simpa [Nat.succ_le_iff] using room
      | cons s rest => simpa [extend, solutions] using unchanged
  | cons s scheme ih =>
      cases var : t.isVariable s with
      | true =>
          cases known : bound.lookup s with
          | some value =>
              by_cases fits : value.isPrefixOf remaining = true
              · simpa [extend, solutions, var, known, fits] using ih bound _ _ search room unchanged
              · simpa [extend, solutions, var, known, fits] using unchanged
          | none =>
              simp only [extend, solutions, var, known, if_true]
              apply grow_window_solutions limit _
                (fun window behind => solutions t scheme (bound ++ [Binding.mk s start window])
                  (start + window.length) behind) _ [] remaining search room
              intro window behind other otherRoom
              exact ih _ _ behind other otherRoom
                (List.take_of_length_le (Nat.le_of_lt otherRoom)).symm
      | false =>
          cases remaining with
          | nil => simpa [extend, solutions, var] using unchanged
          | cons head behind =>
              by_cases same : head = s
              · simpa [extend, solutions, var, same] using ih bound _ behind search room unchanged
              · simpa [extend, solutions, var, same] using unchanged

theorem mem_windows (taken remaining window behind : Formula) :
    (window, behind) ∈ windows taken remaining ↔
      ∃ grown, grown ≠ [] ∧ separator ∉ grown ∧ window = taken ++ grown ∧
        remaining = grown ++ behind := by
  induction remaining generalizing taken with
  | nil =>
      simp only [windows, List.not_mem_nil, false_iff]
      rintro ⟨grown, nonempty, _, _, split⟩
      exact nonempty (List.append_eq_nil_iff.mp split.symm).1
  | cons s rest ih =>
      by_cases blocked : s = separator
      · simp only [windows, if_pos blocked, List.not_mem_nil, false_iff]
        rintro ⟨grown, nonempty, free, _, split⟩
        cases grown with
        | nil => exact nonempty rfl
        | cons head tail =>
            cases split
            exact free (blocked ▸ List.mem_cons_self)
      · simp only [windows, if_neg blocked, List.mem_cons, ih, Prod.mk.injEq]
        constructor
        · rintro (⟨rfl, rfl⟩ | ⟨grown, nonempty, free, rfl, rfl⟩)
          · exact ⟨[s], by simp, by simpa using Ne.symm blocked, rfl, rfl⟩
          · exact ⟨s :: grown, by simp, by simpa using ⟨Ne.symm blocked, free⟩, by simp, by simp⟩
        · rintro ⟨grown, nonempty, free, rfl, split⟩
          cases grown with
          | nil => exact absurd rfl nonempty
          | cons head tail =>
              cases split
              cases tail with
              | nil => exact Or.inl ⟨rfl, rfl⟩
              | cons next others =>
                  refine Or.inr ⟨next :: others, by simp, ?_, by simp, rfl⟩
                  exact fun present => free (List.mem_cons_of_mem s present)

theorem windows_ascending (taken remaining : Formula) :
    (windows taken remaining).Pairwise fun first second => first.1.length < second.1.length := by
  induction remaining generalizing taken with
  | nil => exact List.Pairwise.nil
  | cons s rest ih =>
      by_cases blocked : s = separator
      · simp [windows, blocked]
      · simp only [windows, if_neg blocked, List.pairwise_cons]
        refine ⟨?_, ih (taken ++ [s])⟩
        rintro ⟨window, behind⟩ member
        obtain ⟨grown, nonempty, _, rfl, _⟩ := (mem_windows _ _ _ _).mp member
        have positive := List.length_pos_iff.mpr nonempty
        simp only [List.length_append]
        omega

def bindings (t : Table) (image : Symbol → Formula) : Formula → Substitution → Nat → Substitution
  | [], bound, _ => bound
  | s :: scheme, bound, start =>
      if t.isVariable s then
        match bound.lookup s with
        | some value => bindings t image scheme bound (start + value.length)
        | none =>
            bindings t image scheme (bound ++ [⟨s, start, image s⟩]) (start + (image s).length)
      else bindings t image scheme bound (start + 1)

def Agrees (bound : Substitution) (image : Symbol → Formula) : Prop :=
  ∀ v value, bound.lookup v = some value → image v = value

def Windowed (bound : Substitution) : Prop :=
  ∀ v value, bound.lookup v = some value → value ≠ [] ∧ separator ∉ value

def Fills (t : Table) (image : Symbol → Formula) (scheme : Formula) : Prop :=
  ∀ v ∈ scheme, t.isVariable v = true → image v ≠ [] ∧ separator ∉ image v

theorem fills_cons (t : Table) (image : Symbol → Formula) (s : Symbol) (scheme : Formula) :
    Fills t image (s :: scheme) ↔
      (t.isVariable s = true → image s ≠ [] ∧ separator ∉ image s) ∧ Fills t image scheme := by
  simp only [Fills, List.forall_mem_cons]

theorem agrees_snoc (bound : Substitution) (image : Symbol → Formula) (v : Symbol) (start : Nat)
    (window : Formula) (fresh : bound.lookup v = none) :
    Agrees (bound ++ [⟨v, start, window⟩]) image ↔ Agrees bound image ∧ image v = window := by
  constructor
  · intro agrees
    constructor
    · intro w value known
      exact agrees w value (by simp [Substitution.lookup_append, known])
    · exact agrees v window (by simp [Substitution.lookup_append, fresh, Substitution.lookup_single])
  · rintro ⟨agrees, own⟩ w value known
    rw [Substitution.lookup_append, Substitution.lookup_single] at known
    cases earlier : bound.lookup w with
    | some other =>
        have same : other = value := by simpa [earlier] using known
        exact same ▸ agrees w other earlier
    | none =>
        by_cases same : v = w
        · have last : window = value := by simpa [earlier, same] using known
          rw [← same, own, last]
        · simp [earlier, same] at known

theorem windowed_snoc (bound : Substitution) (v : Symbol) (start : Nat) (window : Formula)
    (windowed : Windowed bound) (nonempty : window ≠ []) (free : separator ∉ window) :
    Windowed (bound ++ [⟨v, start, window⟩]) := by
  intro w value known
  rw [Substitution.lookup_append, Substitution.lookup_single] at known
  cases earlier : bound.lookup w with
  | some other =>
      have same : other = value := by simpa [earlier] using known
      exact same ▸ windowed w other earlier
  | none =>
      by_cases same : v = w
      · have last : window = value := by simpa [earlier, same] using known
        exact last ▸ ⟨nonempty, free⟩
      · simp [earlier, same] at known

-- The induction follows the scheme. The bindings made so far fix the images of the variables
-- behind us, and only a variable without a binding leaves a choice: one window each.
theorem mem_solutions (t : Table) (scheme : Formula) (bound : Substitution) (start : Nat)
    (remaining : Formula) (subst : Substitution) (windowed : Windowed bound) :
    subst ∈ solutions t scheme bound start remaining ↔
      ∃ image, Agrees bound image ∧ Fills t image scheme ∧
        scheme.instantiate t image = remaining ∧ subst = bindings t image scheme bound start := by
  induction scheme generalizing bound start remaining with
  | nil =>
      constructor
      · intro member
        cases remaining with
        | nil =>
            refine ⟨bound.image, fun v value => bound.image_of_lookup v value, by simp [Fills], rfl, ?_⟩
            simpa [solutions, bindings] using member
        | cons s rest => simp [solutions] at member
      · rintro ⟨image, _, _, rfl, rfl⟩
        simp [solutions]
  | cons s scheme ih =>
      cases var : t.isVariable s with
      | false =>
          have constant : ∀ image, Formula.instantiate t image (s :: scheme) =
              s :: Formula.instantiate t image scheme :=
            fun image => Formula.instantiate_const s scheme var
          simp only [constant, fills_cons, var, bindings, solutions, Bool.false_eq_true, if_false,
            false_implies, true_and]
          cases remaining with
          | nil => simp
          | cons head behind =>
              by_cases same : head = s
              · simp only [same, if_true, ih bound _ behind windowed, List.cons.injEq, true_and]
              · simp [same, Ne.symm same]
      | true =>
          have replaced : ∀ image, Formula.instantiate t image (s :: scheme) =
              image s ++ Formula.instantiate t image scheme :=
            fun image => Formula.instantiate_var s scheme var
          simp only [replaced, fills_cons, var, bindings, solutions, if_true, true_implies]
          cases known : bound.lookup s with
          | some value =>
              dsimp only
              constructor
              · intro member
                split at member
                · rename_i fits
                  obtain ⟨behind, rfl⟩ := List.isPrefixOf_iff_prefix.mp fits
                  rw [List.drop_left] at member
                  obtain ⟨image, agrees, fills, rest, rfl⟩ := (ih bound _ behind windowed).mp member
                  have own := agrees s value known
                  exact ⟨image, agrees, ⟨own ▸ windowed s value known, fills⟩, by rw [own, rest], rfl⟩
                · cases member
              · rintro ⟨image, agrees, ⟨_, fills⟩, rfl, rfl⟩
                have own := agrees s value known
                rw [own, if_pos (List.isPrefixOf_iff_prefix.mpr (List.prefix_append _ _)),
                  List.drop_left]
                exact (ih bound _ _ windowed).mpr ⟨image, agrees, fills, rfl, rfl⟩
          | none =>
              simp only [List.mem_flatMap]
              constructor
              · rintro ⟨⟨window, behind⟩, cut, member⟩
                obtain ⟨grown, nonempty, free, same, rfl⟩ := (mem_windows _ _ _ _).mp cut
                simp only [List.nil_append] at same
                subst same
                obtain ⟨image, agrees, fills, rest, rfl⟩ :=
                  (ih _ _ behind (windowed_snoc bound s start window windowed nonempty free)).mp member
                obtain ⟨agrees, own⟩ := (agrees_snoc bound image s start window known).mp agrees
                exact ⟨image, agrees, ⟨own ▸ ⟨nonempty, free⟩, fills⟩, by rw [own, rest], by rw [own]⟩
              · rintro ⟨image, agrees, ⟨⟨nonempty, free⟩, fills⟩, rfl, rfl⟩
                refine ⟨(image s, Formula.instantiate t image scheme), ?_, ?_⟩
                · exact (mem_windows _ _ _ _).mpr ⟨image s, nonempty, free, rfl, rfl⟩
                · exact (ih _ _ _ (windowed_snoc bound s start (image s) windowed nonempty free)).mpr
                    ⟨image, (agrees_snoc bound image s start _ known).mpr ⟨agrees, rfl⟩, fills, rfl, rfl⟩

theorem bindings_prefix (t : Table) (image : Symbol → Formula) (scheme : Formula)
    (bound : Substitution) (start : Nat) : bound <+: bindings t image scheme bound start := by
  induction scheme generalizing bound start with
  | nil => exact List.prefix_rfl
  | cons s scheme ih =>
      unfold bindings
      split
      · split
        · exact ih bound _
        · exact (List.prefix_append bound _).trans (ih _ _)
      · exact ih bound _

theorem bindings_lookup (t : Table) (image : Symbol → Formula) (scheme : Formula)
    (bound : Substitution) (start : Nat) (agrees : Agrees bound image) (v : Symbol)
    (met : (bound.lookup v).isSome = true ∨ v ∈ scheme ∧ t.isVariable v = true) :
    (bindings t image scheme bound start).lookup v = some (image v) := by
  induction scheme generalizing bound start with
  | nil =>
      rcases met with known | ⟨absent, _⟩
      · obtain ⟨value, found⟩ := Option.isSome_iff_exists.mp known
        rw [bindings, found, agrees v value found]
      · cases absent
  | cons s scheme ih =>
      rw [List.mem_cons] at met
      cases var : t.isVariable s with
      | false =>
          simp only [bindings, var, Bool.false_eq_true, if_false]
          apply ih bound _ agrees
          rcases met with known | ⟨rfl | behind, typed⟩
          · exact Or.inl known
          · simp [var] at typed
          · exact Or.inr ⟨behind, typed⟩
      | true =>
          cases earlier : bound.lookup s with
          | some value =>
              simp only [bindings, var, earlier, if_true]
              apply ih bound _ agrees
              rcases met with known | ⟨rfl | behind, typed⟩
              · exact Or.inl known
              · exact Or.inl (by simp [earlier])
              · exact Or.inr ⟨behind, typed⟩
          | none =>
              simp only [bindings, var, earlier, if_true]
              apply ih _ _ ((agrees_snoc bound image s start _ earlier).mpr ⟨agrees, rfl⟩)
              rw [Substitution.lookup_append, Substitution.lookup_single]
              rcases met with known | ⟨rfl | behind, typed⟩
              · exact Or.inl (by simp [known])
              · exact Or.inl (by simp)
              · exact Or.inr ⟨behind, typed⟩

theorem bindings_met (t : Table) (image : Symbol → Formula) (scheme : Formula)
    (bound : Substitution) (start : Nat) (v : Symbol)
    (known : ((bindings t image scheme bound start).lookup v).isSome = true) :
    (bound.lookup v).isSome = true ∨ v ∈ scheme ∧ t.isVariable v = true := by
  induction scheme generalizing bound start with
  | nil => exact Or.inl known
  | cons s scheme ih =>
      rw [List.mem_cons]
      cases var : t.isVariable s with
      | false =>
          simp only [bindings, var, Bool.false_eq_true, if_false] at known
          exact (ih bound _ known).imp id fun ⟨behind, typed⟩ => ⟨Or.inr behind, typed⟩
      | true =>
          cases earlier : bound.lookup s with
          | some value =>
              simp only [bindings, var, earlier, if_true] at known
              exact (ih bound _ known).imp id fun ⟨behind, typed⟩ => ⟨Or.inr behind, typed⟩
          | none =>
              simp only [bindings, var, earlier, if_true] at known
              rcases ih _ _ known with met | ⟨behind, typed⟩
              · rw [Substitution.lookup_append, Substitution.lookup_single] at met
                by_cases same : s = v
                · exact Or.inr ⟨Or.inl same.symm, same ▸ var⟩
                · exact Or.inl (by simpa [same] using met)
              · exact Or.inr ⟨Or.inr behind, typed⟩

def Shorter (first second : Substitution) : Prop :=
  ∃ (shared : Substitution) (v : Symbol) (start : Nat) (short long : Formula),
    shared ++ [⟨v, start, short⟩] <+: first ∧ shared ++ [⟨v, start, long⟩] <+: second ∧
      shared.lookup v = none ∧ short.length < long.length

theorem solution_prefix (t : Table) (scheme : Formula) (bound : Substitution) (start : Nat)
    (remaining : Formula) (subst : Substitution) (windowed : Windowed bound)
    (member : subst ∈ solutions t scheme bound start remaining) : bound <+: subst := by
  obtain ⟨image, _, _, _, rfl⟩ := (mem_solutions t scheme bound start remaining subst windowed).mp member
  exact bindings_prefix t image scheme bound start

theorem solutions_ascending (t : Table) (scheme : Formula) (bound : Substitution) (start : Nat)
    (remaining : Formula) (windowed : Windowed bound) :
    (solutions t scheme bound start remaining).Pairwise Shorter := by
  induction scheme generalizing bound start remaining with
  | nil =>
      unfold solutions
      split
      · exact List.pairwise_singleton _ _
      · exact List.Pairwise.nil
  | cons s scheme ih =>
      unfold solutions
      split
      · split
        · split
          · exact ih bound _ _ windowed
          · exact List.Pairwise.nil
        · rename_i fresh
          have extended : ∀ cut ∈ windows [] remaining, Windowed (bound ++ [⟨s, start, cut.1⟩]) := by
            intro cut member
            obtain ⟨grown, nonempty, free, same, _⟩ := (mem_windows _ _ _ _).mp member
            exact windowed_snoc bound s start cut.1 windowed (same ▸ nonempty) (same ▸ free)
          refine List.pairwise_flatMap.mpr ⟨fun cut member => ih _ _ _ (extended cut member), ?_⟩
          refine (windows_ascending [] remaining).imp_of_mem ?_
          intro first second firstCut secondCut less one oneFound two twoFound
          exact ⟨bound, s, start, first.1, second.1,
            solution_prefix t scheme _ _ _ one (extended first firstCut) oneFound,
            solution_prefix t scheme _ _ _ two (extended second secondCut) twoFound, fresh, less⟩
      · split
        · exact List.Pairwise.nil
        · split
          · exact ih bound _ _ windowed
          · exact List.Pairwise.nil

theorem lookup_met (shared rest : Substitution) (v : Symbol) (start : Nat) (value : Formula)
    (fresh : shared.lookup v = none) :
    (shared ++ [Binding.mk v start value] ++ rest).lookup v = some value := by
  rw [Substitution.lookup_append, Substitution.lookup_append, fresh, Substitution.lookup_single]
  simp

theorem shorter_lookup (first second : Substitution) (shorter : Shorter first second) :
    ∃ v short long, first.lookup v = some short ∧ second.lookup v = some long ∧ short ≠ long := by
  obtain ⟨shared, v, start, short, long, ⟨restOne, rfl⟩, ⟨restTwo, rfl⟩, fresh, less⟩ := shorter
  refine ⟨v, short, long, lookup_met shared restOne v start short fresh,
    lookup_met shared restTwo v start long fresh, ?_⟩
  rintro rfl
  exact Nat.lt_irrefl _ less

theorem join_cons (first second : Formula) (others : List Formula) :
    join (first :: second :: others) = first ++ separator :: join (second :: others) := by
  simp [join, List.intercalate]

theorem join_single (formula : Formula) : join [formula] = formula := by
  simp [join, List.intercalate]

theorem join_instantiate (t : Table) (image : Symbol → Formula) (patterns : List Formula) :
    (join patterns).instantiate t image = join (patterns.map (Formula.instantiate t image)) := by
  induction patterns with
  | nil => rfl
  | cons first others ih =>
      cases others with
      | nil => rw [List.map_singleton, join_single, join_single]
      | cons second others =>
          rw [join_cons, Formula.instantiate_append,
            Formula.instantiate_const _ _ t.separator_constant, ih]
          simp only [List.map_cons, join_cons]

theorem mem_join (s : Symbol) (different : s ≠ separator) (formulas : List Formula) :
    s ∈ join formulas ↔ ∃ formula ∈ formulas, s ∈ formula :=
  mem_intercalate separator s different formulas

theorem join_injective (left right : List Formula) (length : left.length = right.length)
    (leftFree : ∀ formula ∈ left, separator ∉ formula)
    (rightFree : ∀ formula ∈ right, separator ∉ formula) (same : join left = join right) :
    left = right := by
  induction left generalizing right with
  | nil => exact (List.length_eq_zero_iff.mp length.symm).symm
  | cons first others ih =>
      cases right with
      | nil => cases length
      | cons first' others' =>
          cases others with
          | nil =>
              obtain rfl := List.length_eq_zero_iff.mp (Nat.succ.inj length.symm)
              rw [join_single, join_single] at same
              rw [same]
          | cons second others =>
              cases others' with
              | nil => cases length
              | cons second' others' =>
                  rw [join_cons, join_cons] at same
                  obtain ⟨head, tail⟩ := separated_parts separator first first' _ _
                    (leftFree first List.mem_cons_self) (rightFree first' List.mem_cons_self) same
                  have behind := ih (second' :: others') (Nat.succ.inj length)
                    (fun formula member => leftFree formula (List.mem_cons_of_mem _ member))
                    (fun formula member => rightFree formula (List.mem_cons_of_mem _ member)) tail
                  rw [head, behind]

theorem solve_solutions (t : Table) (limit : Nat) (positive : 0 < limit)
    (patterns instances : List Formula) :
    (solve t limit patterns instances).solutions =
      (solutions t (join patterns) [] 0 (join instances)).take limit :=
  extend_solutions t limit (join patterns) [] 0 (join instances) {} positive

theorem mem_joined_solutions (t : Table) (patterns instances : List Formula)
    (length : patterns.length = instances.length)
    (patternsFree : ∀ pattern ∈ patterns, separator ∉ pattern)
    (instancesFree : ∀ operand ∈ instances, separator ∉ operand) (subst : Substitution) :
    subst ∈ solutions t (join patterns) [] 0 (join instances) ↔
      ∃ image, Fills t image (join patterns) ∧
        patterns.map (Formula.instantiate t image) = instances ∧
        subst = bindings t image (join patterns) [] 0 := by
  have nothing : ∀ v, Substitution.lookup [] v = none := fun _ => rfl
  rw [mem_solutions t _ _ _ _ _ (fun v value known => by simp [nothing] at known)]
  constructor
  · rintro ⟨image, _, fills, same, rfl⟩
    refine ⟨image, fills, ?_, rfl⟩
    rw [join_instantiate] at same
    refine join_injective _ _ (by simpa using length) ?_ instancesFree same
    intro formula member present
    obtain ⟨pattern, inside, rfl⟩ := List.mem_map.mp member
    rcases (Formula.mem_instantiate pattern separator).mp present with ⟨own, _⟩ | ⟨v, used, var, filled⟩
    · exact patternsFree pattern inside own
    · have different : v ≠ separator := fun equal => by simp [equal] at var
      exact (fills v ((mem_join v different patterns).mpr ⟨pattern, inside, used⟩) var).2 filled
  · rintro ⟨image, fills, same, rfl⟩
    refine ⟨image, fun v value known => by simp [nothing] at known, fills, ?_, rfl⟩
    rw [join_instantiate, same]

end Lemmata.Matching
