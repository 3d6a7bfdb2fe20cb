import Lemmata.Source
import Lemmata.Yaml.Fit
import Lemmata.Yaml.Layout

/-!
Database files as text: a YAML document with the fields of the record.
-/

set_option autoImplicit false

namespace Lemmata

open Yaml

def Entry.field? : String → Option (Entry → Node → Fit Entry)
  | "label" => some (Fit.setText fun e s => { e with label := s })
  | "kind" => some (Fit.setText fun e s => { e with kind := s })
  | "formula" => some (Fit.setText fun e s => { e with formula := s })
  | "hypotheses" => some (Fit.setList Fit.text fun e xs => { e with hypotheses := xs })
  | "optional" => some (Fit.setList Fit.text fun e xs => { e with optional := xs })
  | "disjoint" => some (Fit.setList (Fit.list Fit.text) fun e xs => { e with disjoint := xs })
  | "proof" => some (Fit.setText fun e s => { e with proof := s })
  | _ => none

def Source.field? : String → Option (Source → Node → Fit Source)
  | "name" => some (Fit.setText fun d s => { d with name := s })
  | "constants" => some (Fit.setList Fit.text fun d xs => { d with constantNames := xs })
  | "variables" => some (Fit.setList Fit.text fun d xs => { d with variableNames := xs })
  | "statements" =>
      some (Fit.setList (Fit.record Entry.field? {}) fun d xs => { d with statements := xs })
  | _ => none

def Entry.layout (entry : Entry) : Layout :=
  let texts (xs : List String) : Layout := .list (xs.map .text)
  let optionalField (name : String) (isEmpty : Bool) (value : Layout) : List (String × Layout) :=
    if isEmpty then [] else [(name, value)]
  .record (
    [("label", .text entry.label), ("kind", .text entry.kind), ("formula", .text entry.formula)]
      ++ optionalField "hypotheses" entry.hypotheses.isEmpty (texts entry.hypotheses)
      ++ optionalField "optional" entry.optional.isEmpty (texts entry.optional)
      ++ optionalField "disjoint" entry.disjoint.isEmpty (.list (entry.disjoint.map texts))
      ++ optionalField "proof" entry.proof.isEmpty (.text entry.proof))

def Source.layout (source : Source) : Layout :=
  .record [
    ("name", .text source.name),
    ("constants", .list (source.constantNames.map .text)),
    ("variables", .list (source.variableNames.map .text)),
    ("statements", .list (source.statements.map Entry.layout))]

def Source.render (source : Source) : String := source.layout.render 2

inductive LoadError where
  | text (cause : ReadError)
  | source (cause : SourceError)
deriving DecidableEq, Repr

def LoadError.message : LoadError → String
  | text cause => "decoding database: " ++ cause.message
  | source cause => cause.message

def Source.ofText (text : String) : Except ReadError Source := Yaml.read Source.field? {} text

def Table.ofText (text : String) : Except LoadError Table := do
  match Source.ofText text with
  | .error cause => .error (.text cause)
  | .ok source =>
      match source.build with
      | .error cause => .error (.source cause)
      | .ok table => return table

end Lemmata
