import Lemmata.Yaml.Node

/-!
Fitting documents to records. A part that does not fit is skipped, and the document as a whole is
then refused; what is wrong with the document itself, or with the text of a field that has rules
of its own, ends the fitting at once.
-/

set_option autoImplicit false

namespace Lemmata.Yaml

inductive Fault where
  | malformed
  | refused (message : String)
deriving DecidableEq, Repr

abbrev Fit := StateT Bool (Except Fault)

abbrev Layer := List (Node × Node)

namespace Node

mutual

-- The entries of a mapping, followed by those of the mappings merged into it: an earlier layer
-- takes precedence. Repeated keys are left to whoever reads the layer.
def layers? : Node → Option (List Layer)
  | .mapping entries =>
      if hasRepeatedKey entries then some [entries]
      else
        (inherited? entries).map fun inherited =>
          entries.filter (fun (key, _) => !key.isMerge) :: inherited
  | .aliasOf _ (some target) => layers? target
  | _ => none

def inherited? : List (Node × Node) → Option (List Layer)
  | [] => some []
  | (key, value) :: rest => do
      let others ← inherited? rest
      if key.isMerge then
        let merged ← merged? value
        return merged ++ others
      else return others

def merged? : Node → Option (List Layer)
  | .sequence items => mergedItems? items
  | .mapping entries => layers? (.mapping entries)
  | .aliasOf _ (some target) => layers? target
  | _ => none

def mergedItems? : List Node → Option (List Layer)
  | [] => some []
  | item :: rest => do
      let first ← layers? item
      let others ← mergedItems? rest
      return first ++ others

end

end Node

namespace Fit

def misfit : Fit Unit := set true

def malformed {α : Type} : Fit α := throw .malformed

inductive Content where
  | scalar (value : Value) (text : String)
  | items (items : List Node)
  | entries (node : Node)

def content (node : Node) : Fit Content :=
  match node.target? with
  | none => malformed
  | some (.scalar tag isPlain text) =>
      match Node.scalarValue? tag isPlain text with
      | some (value, text) => return .scalar value text
      | none => malformed
  | some (.sequence items) => return .items items
  | some other => return .entries other

def text (node : Node) : Fit (Option String) := do
  match ← content node with
  | .scalar .null _ => return none
  | .scalar _ text => return some text
  | _ => do
      misfit
      return none

def setText {α : Type} (update : α → String → α) (a : α) (node : Node) : Fit α := do
  return ((← text node).map (update a)).getD a

def list {α : Type} (item : Node → Fit (Option α)) (node : Node) : Fit (Option (List α)) := do
  match ← content node with
  | .scalar .null _ => return some []
  | .items items => return some (← items.filterMapM item)
  | _ => do
      misfit
      return none

def setList {α β : Type} (item : Node → Fit (Option β)) (update : α → List β → α) (a : α)
    (node : Node) : Fit α := do
  return ((← list item node).map (update a)).getD a

-- What the layers of a mapping give, the first of them being its own entries. An entry whose name
-- an earlier layer has is passed over, and so is a layer with repeated keys.
def layers {α : Type} (entry : List String → String → α → Node → Fit α) :
    List String → List Layer → α → Fit α
  | _, [], a => return a
  | seen, layer :: rest, a => do
      if Node.hasRepeatedKey layer then
        misfit
        layers entry seen rest a
      else
        let (a, names) ← layer.foldlM
          (fun (a, names) (key, value) => do
            match ← text key with
            | none => return (a, names)
            | some name =>
                if seen.contains name then return (a, names)
                else return (← entry names name a value, name :: names))
          (a, [])
        layers entry (names ++ seen) rest a

def record {α : Type} (field? : String → Option (α → Node → Fit α)) (a : α) (node : Node) :
    Fit (Option α) := do
  match ← content node with
  | .scalar .null _ => return none
  | .entries mapping =>
      match mapping.layers? with
      | none => malformed
      | some [] => return none
      | some (own :: inherited) =>
          if Node.hasRepeatedKey own then
            misfit
            return none
          else
            let fill (names : List String) (name : String) (a : α) (value : Node) : Fit α :=
              match field? name with
              | some field => if names.contains name then do misfit; return a else field a value
              | none => do
                  misfit
                  return a
            return some (← layers fill [] (own :: inherited) a)
  | _ => do
      misfit
      return none

def setRecord {α β : Type} (field? : String → Option (β → Node → Fit β)) (get : α → β)
    (update : α → β → α) (a : α) (node : Node) : Fit α := do
  return ((← record field? (get a) node).map (update a)).getD a

def isNull (node : Node) : Fit Bool := do
  match ← content node with
  | .scalar .null _ => return true
  | _ => return false

def insertPair {β : Type} (pairs : List (String × β)) (name : String) (b : β) : List (String × β) :=
  pairs.filter (fun (other, _) => other != name) ++ [(name, b)]

def table {β : Type} (value : Node → Fit (Option β)) (missing : β) (pairs : List (String × β))
    (node : Node) : Fit (Option (List (String × β))) := do
  match ← content node with
  | .scalar .null _ => return some []
  | .entries mapping =>
      match mapping.layers? with
      | none => malformed
      | some layers =>
          let put (_ : List String) (name : String) (pairs : List (String × β)) (node : Node) :
              Fit (List (String × β)) := do
            match ← value node with
            | some b => return insertPair pairs name b
            | none =>
                if (← isNull node) && (pairs.lookup name).isNone then
                  return insertPair pairs name missing
                else return pairs
          return some (← Fit.layers put [] layers pairs)
  | _ => do
      misfit
      return none

def setTable {α β : Type} (value : Node → Fit (Option β)) (missing : β)
    (get : α → List (String × β)) (update : α → List (String × β) → α) (a : α) (node : Node) :
    Fit α := do
  return ((← table value missing (get a) node).map (update a)).getD a

end Fit

inductive ReadError where
  | empty
  | malformed
  | misfit
  | refused (message : String)
deriving DecidableEq, Repr

def ReadError.message : ReadError → String
  | empty => "EOF"
  | malformed => "the document is malformed"
  | misfit => "the document does not fit"
  | refused text => text

def read {α : Type} (field? : String → Option (α → Node → Fit α)) (a : α) (text : String) :
    Except ReadError α :=
  match Node.ofText? text with
  | none => .error .malformed
  | some none => .error .empty
  | some (some root) =>
      match (Fit.record field? a root).run false with
      | .error .malformed => .error .malformed
      | .error (.refused message) => .error (.refused message)
      | .ok (_, true) => .error .misfit
      | .ok (filled, false) => .ok (filled.getD a)

end Lemmata.Yaml
