import Lemmata.Statement
import Lemmata.Text.Word
import Lemmata.Text.Quoted

/-!
The statement table: symbols and statements in the order of their declaration, with the look-ups
by position and by name, and the reading and writing of formulas.
-/

set_option autoImplicit false

namespace Lemmata

structure Table where
  name : String
  symbols : List SymbolInfo := []
  statements : List Statement := []
deriving DecidableEq, Repr

namespace Table

def symbolInfo (t : Table) (s : Symbol) : Option SymbolInfo :=
  if s < 0 then none else t.symbols[s.toNat]?

def statement (t : Table) (id : Int) : Option Statement :=
  if id < 0 then none else t.statements[id.toNat]?

def lookup (t : Table) (label : String) : Option Statement :=
  if label = "" then none else t.statements.find? fun s => s.label == label

def symbol (t : Table) (name : String) : Option Symbol :=
  (t.symbols.findIdx? fun info => info.name == name).map Int.ofNat

def symbolName (t : Table) (s : Symbol) : String :=
  if s = separator then "&"
  else
    match t.symbolInfo s with
    | some info => info.name
    | none => "<" ++ toString s ++ ">"

def isVariable (t : Table) (s : Symbol) : Bool :=
  match t.symbolInfo s with
  | some info => info.kind == .var
  | none => false

def theorems (t : Table) : List Statement := t.statements.filter fun s => s.kind == .proved

def labelOf (t : Table) (id : Int) : String :=
  match t.statement id with
  | some s => s.label
  | none => ""

def formulaOf (t : Table) (id : Int) : Formula :=
  match t.statement id with
  | some s => s.formula
  | none => []

def symbolsOf (t : Table) (names : List String) : Except String Formula :=
  names.mapM fun name =>
    match t.symbol name with
    | some s => .ok s
    | none => .error name

-- Reads a formula from symbol names separated by white space. The error is the first name that
-- is not declared.
def parse (t : Table) (text : String) : Except String Formula := t.symbolsOf (Text.wordNames text)

def undeclaredSymbol (name : String) : String := "undeclared math symbol " ++ Text.quoted name

def render (t : Table) (formula : Formula) : String :=
  " ".intercalate (formula.map t.symbolName)

end Table

end Lemmata
