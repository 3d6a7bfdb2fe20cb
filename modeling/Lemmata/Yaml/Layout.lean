import Lemmata.Yaml.ScalarStyle

/-!
Documents as they are written: one item or field in a line, deeper where it belongs to another.
-/

set_option autoImplicit false

namespace Lemmata.Yaml

inductive Layout where
  | text (value : String)
  | list (items : List Layout)
  | record (fields : List (String × Layout))

namespace Layout

-- The column of what belongs to a field at `column`: the next multiple of the step.
def deeper (step column : Nat) : Nat := step * ((column + step) / step)

def inline? (step column : Nat) : Layout → Option String
  | text value => some (writtenScalar step column value)
  | list [] => some "[]"
  | record [] => some "{}"
  | _ => none

def pad (column : Nat) (line : String) : String := String.ofList (List.replicate column ' ') ++ line

def lead (start : String) : List String → List String
  | [] => []
  | line :: rest => (start ++ line) :: rest

mutual

def body (step column : Nat) : Layout → List String
  | text value => [writtenScalar step column value]
  | list items => itemLines step column items
  | record fields => fieldLines step column fields

def itemLines (step column : Nat) : List Layout → List String
  | [] => []
  | item :: rest =>
      let lines :=
        match inline? step (column + 2) item with
        | some shown => ["- " ++ shown]
        | none => lead "- " (body step (column + 2) item)
      lines ++ lead (pad column "") (itemLines step column rest)

def fieldLines (step column : Nat) : List (String × Layout) → List String
  | [] => []
  | (name, value) :: rest =>
      let lines :=
        match inline? step (deeper step column) value with
        | some shown => [name ++ ": " ++ shown]
        | none =>
            (name ++ ":") ::
              lead (pad (deeper step column) "") (body step (deeper step column) value)
      lines ++ lead (pad column "") (fieldLines step column rest)

end

def endLine (line : String) : String :=
  if (line.toList.getLast?.map isBreak).getD false then line else line ++ "\n"

def render (step : Nat) (layout : Layout) : String :=
  "".intercalate ((body step 0 layout).map endLine)

end Layout

end Lemmata.Yaml
