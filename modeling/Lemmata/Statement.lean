/-!
Symbols, formulas and statements. A symbol is its position in the symbol list of a table; the separator
and other numbers outside of that list are symbols that no table declares. A statement is known by its
position in the table, and refers only to statements before it.
-/

set_option autoImplicit false

namespace Lemmata

abbrev Symbol := Int

-- Joins the formulas of several hypotheses into one sequence. No table declares it.
def separator : Symbol := -1

inductive SymbolKind where
  | const
  | var
deriving DecidableEq, Repr

def SymbolKind.name : SymbolKind → String
  | const => "constant"
  | var => "variable"

def SymbolKind.ofRank : Int → Option SymbolKind
  | 0 => some const
  | 1 => some var
  | _ => none

structure SymbolInfo where
  name : String
  kind : SymbolKind
deriving DecidableEq, Repr

abbrev Formula := List Symbol

def Formula.isUnknown (formula : Formula) : Bool := formula.isEmpty

-- An unordered pair of variables, kept with the smaller one first.
structure Pair where
  a : Symbol
  b : Symbol
deriving DecidableEq, Repr

def Pair.of (x y : Symbol) : Pair := if y < x then ⟨y, x⟩ else ⟨x, y⟩

theorem Pair.of_comm (x y : Symbol) : Pair.of x y = Pair.of y x := by
  grind [Pair.of]

inductive Kind where
  | constantList
  | variableList
  | disjoint
  | floating
  | essential
  | assumed
  | proved
  | scopeOpen
  | scopeClose
deriving DecidableEq, Repr

namespace Kind

def all : List Kind :=
  [constantList, variableList, disjoint, floating, essential, assumed, proved, scopeOpen,
    scopeClose]

def name : Kind → String
  | constantList => "constant"
  | variableList => "variable"
  | disjoint => "disjoint"
  | floating => "floating"
  | essential => "essential"
  | assumed => "axiom"
  | proved => "theorem"
  | scopeOpen => "scope-open"
  | scopeClose => "scope-close"

def ofName (name : String) : Option Kind := all.find? fun kind => kind.name == name

def rank (kind : Kind) : Nat := all.idxOf kind

def ofRank (rank : Int) : Option Kind := if rank < 0 then none else all[rank.toNat]?

def isHypothesis : Kind → Bool
  | floating | essential => true
  | _ => false

def isAssertion : Kind → Bool
  | assumed | proved => true
  | _ => false

end Kind

structure Frame where
  -- Hypotheses whose operands stand on the proof stack, in this order.
  required : List Int := []
  optional : List Int := []
  vars : List Symbol := []
  disjoint : List Pair := []
  -- Disjoint pairs with a variable that is not required.
  optionalDisjoint : List Pair := []
deriving DecidableEq, Repr

namespace Frame

def indexOf (frame : Frame) (id : Int) : Option Nat := frame.required.idxOf? id

@[simp]
theorem index_of_is_some (frame : Frame) (id : Int) :
    (frame.indexOf id).isSome = frame.required.contains id := by
  rw [Bool.eq_iff_iff, List.contains_iff_mem]
  exact List.isSome_idxOf?

def contains (frame : Frame) (id : Int) : Bool :=
  (frame.indexOf id).isSome || frame.optional.contains id

def allowsDisjoint (frame : Frame) (x y : Symbol) : Bool :=
  frame.disjoint.contains (Pair.of x y) || frame.optionalDisjoint.contains (Pair.of x y)

def pairs (frame : Frame) : List Pair := frame.disjoint ++ frame.optionalDisjoint

end Frame

structure Statement where
  id : Int
  label : String
  kind : Kind
  formula : Formula
  frame : Frame := {}
  proof : String := ""
deriving DecidableEq, Repr

namespace Statement

def isHypothesis (s : Statement) : Bool := s.kind.isHypothesis

def isAssertion (s : Statement) : Bool := s.kind.isAssertion

def typedVariable (s : Statement) : Option Symbol :=
  match s.kind with
  | .floating => s.formula[1]?
  | _ => none

end Statement

end Lemmata
