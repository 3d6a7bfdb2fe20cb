import Lemmata.Table

/-!
Building a table by declarations. Every declaration is checked against what the table holds
already, and the first one that does not fit ends the building.
-/

set_option autoImplicit false

namespace Lemmata

structure Dependencies where
  required : List String := []
  optional : List String := []
  disjoint : List (List String) := []
deriving DecidableEq, Repr

inductive Declaration where
  | constantList (names : List String)
  | variableList (names : List String)
  | floating (label formula : String)
  | essential (label formula : String)
  | assumed (label formula : String) (dependencies : Dependencies)
  | proved (label formula : String) (dependencies : Dependencies) (proof : String)
deriving DecidableEq, Repr

inductive DeclarationError where
  | invalidSymbol (name : String)
  | repeatedSymbol (name : String)
  | missingLabel
  | invalidLabel (label : String)
  | repeatedLabel (label : String)
  | labelIsSymbol (label : String)
  | undeclaredSymbol (label name : String)
  | emptyFormula (label : String)
  | variableFirst (label : String)
  | notFloating (label : String)
  | unknownHypothesis (label hypothesis : String)
  | notHypothesis (label hypothesis : String)
  | typedTwice (label var : String)
  | requiredAndOptional (label hypothesis : String)
  | untyped (label var : String)
  | notVariable (label name : String)
  | selfDisjoint (label var : String)
deriving DecidableEq, Repr

open Text in
def DeclarationError.message : DeclarationError → String
  | invalidSymbol name => "invalid math symbol " ++ quoted name
  | repeatedSymbol name => "math symbol " ++ quoted name ++ " declared twice"
  | missingLabel => "statement without a label"
  | invalidLabel label => "invalid label " ++ quoted label
  | repeatedLabel label => "label " ++ quoted label ++ " declared twice"
  | labelIsSymbol label => "label " ++ quoted label ++ " clashes with a math symbol"
  | undeclaredSymbol label name => label ++ ": " ++ Table.undeclaredSymbol name
  | emptyFormula label => label ++ ": empty formula"
  | variableFirst label => label ++ ": formula must start with a constant"
  | notFloating label =>
      label ++ ": floating hypothesis must be a constant followed by a variable"
  | unknownHypothesis label hypothesis => label ++ ": unknown hypothesis " ++ quoted hypothesis
  | notHypothesis label hypothesis => label ++ ": " ++ quoted hypothesis ++ " is not a hypothesis"
  | typedTwice label var => label ++ ": variable " ++ quoted var ++ " has two floating hypotheses"
  | requiredAndOptional label hypothesis =>
      label ++ ": hypothesis " ++ quoted hypothesis ++ " is both required and optional"
  | untyped label var =>
      label ++ ": variable " ++ quoted var ++ " has no required floating hypothesis"
  | notVariable label name =>
      label ++ ": disjoint variable " ++ quoted name ++ " is not a declared variable"
  | selfDisjoint label var => label ++ ": variable " ++ quoted var ++ " is disjoint from itself"

def isSymbolName (name : String) : Bool :=
  !name.toList.isEmpty && name.toList.all fun c => !Text.isSpacing c

-- A label has none of the characters that a proof text gives a meaning of its own.
def isLabelName (label : String) : Bool :=
  label.toList.all fun c => !Text.isSpacing c && c != '(' && c != ')' && c != '?'

namespace Table

abbrev Checked := Except DeclarationError

def addSymbols (kind : SymbolKind) : List String → List SymbolInfo → Checked (List SymbolInfo)
  | [], symbols => .ok symbols
  | name :: rest, symbols =>
      if !isSymbolName name then .error (.invalidSymbol name)
      else if symbols.any fun info => info.name == name then .error (.repeatedSymbol name)
      else addSymbols kind rest (symbols ++ [⟨name, kind⟩])

def push (t : Table) (label : String) (kind : Kind) (formula : Formula) (frame : Frame := {})
    (proof : String := "") : Table :=
  { t with
    statements := t.statements ++ [⟨t.statements.length, label, kind, formula, frame, proof⟩] }

def declareSymbols (t : Table) (kind : SymbolKind) (declared : Kind) (names : List String) :
    Checked Table := do
  let symbols ← addSymbols kind names t.symbols
  let formula := (List.range' t.symbols.length names.length).map Int.ofNat
  return { t with symbols }.push "" declared formula

def checkLabel (t : Table) (label : String) : Checked Unit :=
  if label = "" then .error .missingLabel
  else if !isLabelName label then .error (.invalidLabel label)
  else if (t.lookup label).isSome then .error (.repeatedLabel label)
  else if (t.symbol label).isSome then .error (.labelIsSymbol label)
  else .ok ()

def checkFormula (t : Table) (label text : String) : Checked Formula :=
  match t.parse text with
  | .error name => .error (.undeclaredSymbol label name)
  | .ok [] => .error (.emptyFormula label)
  | .ok (head :: tail) =>
      if t.isVariable head then .error (.variableFirst label) else .ok (head :: tail)

def hypothesis (t : Table) (label name : String) : Checked Statement :=
  match t.lookup name with
  | none => .error (.unknownHypothesis label name)
  | some h => if h.isHypothesis then .ok h else .error (.notHypothesis label name)

def requiredHypotheses (t : Table) (label : String) :
    List String → List Symbol → Checked (List Int × List Symbol)
  | [], vars => .ok ([], vars)
  | name :: rest, vars => do
      let h ← t.hypothesis label name
      match h.typedVariable with
      | none =>
          let (ids, all) ← requiredHypotheses t label rest vars
          return (h.id :: ids, all)
      | some v =>
          if vars.contains v then .error (.typedTwice label (t.symbolName v))
          else
            let (ids, all) ← requiredHypotheses t label rest (vars ++ [v])
            return (h.id :: ids, all)

def optionalHypotheses (t : Table) (label : String) (required : List Int) :
    List String → Checked (List Int)
  | [] => .ok []
  | name :: rest => do
      let h ← t.hypothesis label name
      if required.contains h.id then .error (.requiredAndOptional label name)
      else
        let ids ← optionalHypotheses t label required rest
        return h.id :: ids

-- The symbols whose variables an assertion has to type: its own formula and those of its
-- required essential hypotheses.
def scopeOf (t : Table) (formula : Formula) (required : List Int) : Formula :=
  formula ++ required.flatMap fun id =>
    match t.statement id with
    | some h => if h.kind == .essential then h.formula else []
    | none => []

def checkTyped (t : Table) (label : String) (vars : List Symbol) (scope : Formula) :
    Checked Unit :=
  match scope.find? fun s => t.isVariable s && !vars.contains s with
  | some s => .error (.untyped label (t.symbolName s))
  | none => .ok ()

def groupVariable (t : Table) (label name : String) : Checked Symbol :=
  match t.symbol name with
  | some s => if t.isVariable s then .ok s else .error (.notVariable label name)
  | none => .error (.notVariable label name)

def laterPairs : List Symbol → List (Symbol × Symbol)
  | [] => []
  | x :: rest => rest.map (x, ·) ++ laterPairs rest

def groupPairs (t : Table) (label : String) (group : List String) : Checked (List Pair) := do
  let vars ← group.mapM (t.groupVariable label)
  let pairs := laterPairs vars
  match pairs.find? fun (x, y) => x == y with
  | some (x, _) => .error (.selfDisjoint label (t.symbolName x))
  | none => return pairs.map fun (x, y) => Pair.of x y

-- The frame of an assertion. A pair counts once, whatever groups it comes from.
def frameOf (t : Table) (label : String) (formula : Formula) (dependencies : Dependencies) :
    Checked Frame := do
  let (required, vars) ← t.requiredHypotheses label dependencies.required []
  let optional ← t.optionalHypotheses label required dependencies.optional
  t.checkTyped label vars (t.scopeOf formula required)
  let groups ← dependencies.disjoint.mapM (t.groupPairs label)
  let pairs := groups.flatten.eraseDups
  let isRequired (p : Pair) : Bool := vars.contains p.a && vars.contains p.b
  return {
    required, optional, vars
    disjoint := pairs.filter isRequired
    optionalDisjoint := pairs.filter fun p => !isRequired p }

def declareAssertion (t : Table) (label : String) (kind : Kind) (text : String)
    (dependencies : Dependencies) (proof : String) : Checked Table := do
  t.checkLabel label
  let formula ← t.checkFormula label text
  let frame ← t.frameOf label formula dependencies
  return t.push label kind formula frame proof

def declare (t : Table) : Declaration → Checked Table
  | .constantList names => t.declareSymbols .const .constantList names
  | .variableList names => t.declareSymbols .var .variableList names
  | .floating label text => do
      t.checkLabel label
      match ← t.checkFormula label text with
      | [typecode, v] =>
          if t.isVariable v then return t.push label .floating [typecode, v]
          else .error (.notFloating label)
      | _ => .error (.notFloating label)
  | .essential label text => do
      t.checkLabel label
      let formula ← t.checkFormula label text
      return t.push label .essential formula
  | .assumed label text dependencies => t.declareAssertion label .assumed text dependencies ""
  | .proved label text dependencies proof =>
      t.declareAssertion label .proved text dependencies proof

def build (name : String) (declarations : List Declaration) : Checked Table :=
  declarations.foldlM declare { name }

end Table

end Lemmata
