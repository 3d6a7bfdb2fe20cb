import Lemmata.Declaration

/-!
Database files as records: the names of the symbols and one entry for each statement. A record
can be built into a table, and a table can be written back as a record.
-/

set_option autoImplicit false

namespace Lemmata

structure Entry where
  label : String := ""
  kind : String := ""
  formula : String := ""
  hypotheses : List String := []
  optional : List String := []
  disjoint : List (List String) := []
  proof : String := ""
deriving DecidableEq, Repr

structure Source where
  name : String := ""
  constantNames : List String := []
  variableNames : List String := []
  statements : List Entry := []
deriving DecidableEq, Repr

inductive SourceError where
  | unknownKind (index : Nat) (label kind : String)
  | misplacedKind (index : Nat) (label kind : String)
  | missingProof (label : String)
  | declaration (cause : DeclarationError)
deriving DecidableEq, Repr

def SourceError.message : SourceError → String
  | unknownKind index label kind =>
      "statement " ++ toString index ++ " (" ++ label ++ "): unknown kind " ++ Text.quoted kind
  | misplacedKind index label kind =>
      "statement " ++ toString index ++ " (" ++ label ++ "): kind " ++ Text.quoted kind
        ++ " cannot appear in a database file"
  | missingProof label => "theorem " ++ label ++ " has no proof"
  | declaration cause => "building statement table: " ++ cause.message

namespace Entry

def dependencies (entry : Entry) : Dependencies :=
  ⟨entry.hypotheses, entry.optional, entry.disjoint⟩

def declaration (index : Nat) (entry : Entry) : Except SourceError Declaration :=
  match Kind.ofName entry.kind with
  | none => .error (.unknownKind index entry.label entry.kind)
  | some .floating => .ok (.floating entry.label entry.formula)
  | some .essential => .ok (.essential entry.label entry.formula)
  | some .assumed => .ok (.assumed entry.label entry.formula entry.dependencies)
  | some .proved =>
      if entry.proof = "" then .error (.missingProof entry.label)
      else .ok (.proved entry.label entry.formula entry.dependencies entry.proof)
  | some _ => .error (.misplacedKind index entry.label entry.kind)

def declarations : Nat → List Entry → Except SourceError (List Declaration)
  | _, [] => .ok []
  | index, entry :: rest => do
      let first ← entry.declaration index
      let others ← declarations (index + 1) rest
      return first :: others

end Entry

namespace Source

-- A file without constants, or without variables, makes no declaration for them.
def symbolDeclarations (source : Source) : List Declaration :=
  (if source.constantNames.isEmpty then [] else [.constantList source.constantNames])
    ++ (if source.variableNames.isEmpty then [] else [.variableList source.variableNames])

-- Builds the table. An entry that makes no declaration is reported before any declaration that
-- does not fit.
def build (source : Source) : Except SourceError Table := do
  let declarations ← Entry.declarations 0 source.statements
  match Table.build source.name (source.symbolDeclarations ++ declarations) with
  | .ok table => return table
  | .error cause => .error (.declaration cause)

end Source

namespace Table

def declaredNames (t : Table) (kind : Kind) : List String :=
  t.statements.flatMap fun s => if s.kind == kind then s.formula.map t.symbolName else []

def entryOf (t : Table) (proofOf : Statement → String) (s : Statement) : Entry where
  label := s.label
  kind := s.kind.name
  formula := t.render s.formula
  hypotheses := if s.isAssertion then s.frame.required.map t.labelOf else []
  optional := if s.isAssertion then s.frame.optional.map t.labelOf else []
  disjoint :=
    if s.isAssertion then s.frame.pairs.map fun p => [t.symbolName p.a, t.symbolName p.b] else []
  proof := if s.kind == .proved then proofOf s else ""

def toSource (t : Table) (proofOf : Statement → String := Statement.proof) : Source where
  name := t.name
  constantNames := t.declaredNames .constantList
  variableNames := t.declaredNames .variableList
  statements :=
    (t.statements.filter fun s => s.kind != .constantList && s.kind != .variableList).map
      (t.entryOf proofOf)

end Table

end Lemmata
