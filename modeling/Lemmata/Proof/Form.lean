import Lemmata.Proof.Compress
import Lemmata.Proof.Decode
import Lemmata.Proof.Instruction
import Lemmata.Source

/-!
The two written forms of a proof, and a database whose proofs are restated in one of them. A proof
that cannot be read is kept as it is.
-/

set_option autoImplicit false

namespace Lemmata

inductive ProofForm where
  | compressed
  | plain
deriving DecidableEq, Repr

namespace ProofForm

def express (form : ProofForm) (t : Table) (s : Statement) : Except String String := do
  let proof ← (Proof.decode t s s.proof).mapError DecodeError.message
  match form with
  | compressed => (Proof.compress t s proof).mapError CompressError.message
  | plain => return Proof.plainText t proof

end ProofForm

namespace Table

def badSelection? (t : Table) (labels : List String) : Option String :=
  labels.find? fun label =>
    match t.lookup label with
    | some s => s.kind != .proved
    | none => true

-- Without a selection every theorem is selected.
def selects (labels : List String) (s : Statement) : Bool :=
  labels.isEmpty || labels.contains s.label

def restatedProof (t : Table) (form : ProofForm) (labels : List String) (s : Statement) : String :=
  if selects labels s then
    match form.express t s with
    | .ok text => text
    | .error _ => s.proof
  else s.proof

def restated (t : Table) (form : ProofForm) (labels : List String) : Source :=
  t.toSource (t.restatedProof form labels)

def keptProofs (t : Table) (form : ProofForm) (labels : List String) : List (String × String) :=
  (t.theorems.filter (selects labels)).filterMap fun s =>
    match form.express t s with
    | .ok _ => none
    | .error cause => some (s.label, cause)

end Table

end Lemmata
