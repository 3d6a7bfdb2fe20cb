import Lemmata.Table

/-!
Matching a scheme against an instance by backtracking. Hypotheses are joined by the separator and
matched as one sequence. A variable is bound at its first occurrence, to one symbol first and to
a longer window only when the rest of the scheme cannot be matched; so the solutions come in the
order of their window lengths, and the search ends as soon as it has as many as are wanted.
-/

set_option autoImplicit false

namespace Lemmata

structure Binding where
  var : Symbol
  -- Where the window starts in the joined instance.
  start : Nat
  value : Formula
deriving DecidableEq, Repr

abbrev Substitution := List Binding

namespace Substitution

def lookup (subst : Substitution) (v : Symbol) : Option Formula :=
  (subst.find? fun binding => binding.var == v).map Binding.value

def apply (subst : Substitution) (t : Table) : Formula → Option Formula
  | [] => some []
  | s :: rest =>
      if t.isVariable s then do
        let value ← subst.lookup s
        let others ← apply subst t rest
        return value ++ others
      else do
        let others ← apply subst t rest
        return s :: others

def agrees (subst other : Substitution) : Bool :=
  subst.length == other.length
    && subst.all fun binding => other.lookup binding.var == some binding.value

def render (subst : Substitution) (t : Table) : String :=
  ", ".intercalate
    (subst.map fun binding => t.symbolName binding.var ++ " := " ++ t.render binding.value)

end Substitution

structure Search where
  solutions : List Substitution := []
  backtracks : Nat := 0
deriving DecidableEq, Repr

namespace Matching

-- Tries the windows of a variable that start with `taken` and reach further into the rest of
-- the instance, up to the separator.
def growWindow (limit : Nat) (attempt : Formula → Formula → Search → Search) :
    Formula → Formula → Search → Search
  | _, [], search => search
  | taken, s :: rest, search =>
      if s = separator then search
      else
        let window := taken ++ [s]
        let found := attempt window rest search
        if limit ≤ found.solutions.length then found
        else
          growWindow limit attempt window rest
            { found with backtracks := found.backtracks + 1 }

-- Extends the bindings `bound` over the rest of the scheme and of the instance, the latter from
-- its position `start` on.
def extend (t : Table) (limit : Nat) :
    Formula → Substitution → Nat → Formula → Search → Search
  | [], bound, _, instance_, search =>
      if instance_.isEmpty then { search with solutions := search.solutions ++ [bound] }
      else search
  | s :: scheme, bound, start, instance_, search =>
      if t.isVariable s then
        match bound.lookup s with
        | some value =>
            if value.isPrefixOf instance_ then
              extend t limit scheme bound (start + value.length) (instance_.drop value.length)
                search
            else search
        | none =>
            growWindow limit
              (fun window rest found =>
                extend t limit scheme (bound ++ [⟨s, start, window⟩]) (start + window.length) rest
                  found)
              [] instance_ search
      else
        match instance_ with
        | [] => search
        | head :: rest =>
            if head = s then extend t limit scheme bound (start + 1) rest search else search

def join (formulas : List Formula) : Formula := [separator].intercalate formulas

def solve (t : Table) (limit : Nat) (patterns instances : List Formula) : Search :=
  extend t limit (join patterns) [] 0 (join instances) {}

end Matching

end Lemmata
