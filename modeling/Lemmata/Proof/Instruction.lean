import Lemmata.Table

/-!
Proofs as instruction sequences. An instruction refers to a statement, reuses the formula of an
earlier step, or leaves a step open. In plain form a step that reuses an earlier one stands for the
whole subproof of that step, so the proof is written as a sequence of labels.
-/

set_option autoImplicit false

namespace Lemmata

inductive Instruction where
  | reference (statement : Int)
  | reuse (step : Int)
  | unknown
  -- A kind of instruction that no proof text has.
  | invalid (kind : Int)
deriving DecidableEq, Repr

abbrev Proof := List Instruction

def Proof.isIncomplete (proof : Proof) : Bool := proof.contains .unknown

end Lemmata

namespace Lemmata.Proof

def arity (t : Table) : Instruction → Nat
  | .reference id =>
      match t.statement id with
      | some s => if s.isAssertion then s.frame.required.length else 0
      | none => 0
  | _ => 0

-- The first step of the subproof that ends at a step, when `need` formulas are missing there.
def subproofStart (arityAt : Nat → Nat) : Nat → Nat → Nat
  | _, 0 => 0
  | need, step + 1 =>
      let missing := need - 1 + arityAt (step + 1)
      if missing = 0 then step + 1 else subproofStart arityAt missing step

def expandStep (arityAt : Nat → Nat) (done : List Proof) : Instruction → Proof
  | .reuse step =>
      if 0 ≤ step ∧ step < done.length then
        let start := subproofStart arityAt 1 step.toNat
        ((done.take (step.toNat + 1)).drop start).flatten
      else [.reuse step]
  | instruction => [instruction]

def expansions (t : Table) (proof : Proof) : List Proof :=
  let arityAt (step : Nat) : Nat := (proof[step]?.map (arity t)).getD 0
  proof.foldl (fun done instruction => done ++ [expandStep arityAt done instruction]) []

def expand (t : Table) (proof : Proof) : Proof := (expansions t proof).flatten

def plainWord (t : Table) : Instruction → String
  | .reference id =>
      match t.statement id with
      | some s => s.label
      | none => "<" ++ toString id ++ ">"
  | .reuse step => "<step " ++ toString step ++ ">"
  | _ => "?"

def plainText (t : Table) (proof : Proof) : String :=
  " ".intercalate ((expand t proof).map (plainWord t))

end Lemmata.Proof
