import Lemmata.Yaml.Value
import Lemmata.Yaml.TokenStream

/-!
Documents as trees. A node is a scalar, a sequence, a mapping or an alias of an earlier node.
-/

set_option autoImplicit false

namespace Lemmata.Yaml

inductive Node where
  | scalar (tag : Option String) (isPlain : Bool) (text : String)
  | sequence (items : List Node)
  | mapping (entries : List (Node × Node))
  | aliasOf (name : String) (target : Option Node)

namespace Node

def empty : Node := scalar none true ""

def shortTag (tag : String) : String :=
  let standard := "tag:yaml.org,2002:"
  if tag.startsWith standard then "!!" ++ (tag.drop standard.length).toString else tag

-- What a scalar means, and its text. It is an error if the scalar does not have the form that its
-- tag asks for; under a tag of its own it is text.
def scalarValue? (tag : Option String) (isPlain : Bool) (text : String) : Option (Value × String) :=
  match tag with
  | none => some (if isPlain then .ofPlain text else .text, text)
  | some tag =>
      let found := Value.ofPlain text
      match shortTag tag, found with
      | "!!str", _ => some (.text, text)
      | "!!binary", _ => (Text.Base64.decode? text).map fun decoded => (.text, decoded)
      | "!!float", .integer n =>
          if Text.Numeral.inInt64 n then some (.real (some ⟨n < 0, n.natAbs, 0⟩), text) else none
      | short, _ =>
          if !Value.tags.contains short then some (.text, text)
          else if short = found.tag then some (found, text)
          else none

def isMerge : Node → Bool
  | scalar tag isPlain text =>
      text == "<<"
        && (match tag with
          | none => isPlain
          | some tag => shortTag tag == "!!merge")
  | _ => false

def target? : Node → Option Node
  | aliasOf _ target => target
  | node => some node

def sameKey : Node → Node → Bool
  | scalar _ _ a, scalar _ _ b => a == b
  | aliasOf a _, aliasOf b _ => a == b
  | sequence _, sequence _ => true
  | mapping _, mapping _ => true
  | _, _ => false

def hasRepeatedKey : List (Node × Node) → Bool
  | [] => false
  | (key, _) :: rest => rest.any (fun (other, _) => sameKey key other) || hasRepeatedKey rest

end Node

/-! ### Reading a document -/

structure Composer where
  tokens : List Token
  complete : Bool
  handles : List (String × String) := []
  -- The named nodes, the latest first; one that is not finished yet has only its name.
  anchors : List (String × Option Node) := []

abbrev Compose := StateT Composer Option

namespace Compose

def peek : Compose (Option Token) := fun s =>
  match s.tokens with
  | token :: _ => some (some token, s)
  | [] => if s.complete then some (none, s) else none

def advance : Compose Unit := modify fun s => { s with tokens := s.tokens.drop 1 }

def nextIs (tokens : List Token) : Compose Bool := do
  return match ← peek with
    | some token => tokens.contains token
    | none => false

def expect (token : Token) : Compose Unit := do
  if ← nextIs [token] then advance else failure

def anchorNode (name : Option String) (node : Option Node) : Compose Unit :=
  match name with
  | none => pure ()
  | some name => modify fun s => { s with anchors := (name, node) :: s.anchors }

def fullTag (written : WrittenTag) : Compose (Option String) := do
  if written.handle = "" then return if written.suffix = "!" then none else some written.suffix
  else
    match (← get).handles.lookup written.handle with
    | some start => return some (start ++ written.suffix)
    | none => failure

structure Properties where
  anchor : Option String := none
  tag : Option (Option String) := none

def anchorProperty (p : Properties) : Compose Properties := do
  match ← peek with
  | some (.anchor name) => do
      advance
      return { p with anchor := some name }
  | _ => return p

def tagProperty (p : Properties) : Compose Properties := do
  match ← peek with
  | some (.tag written) => do
      advance
      return { p with tag := some (← fullTag written) }
  | _ => return p

def properties : Compose Properties := do
  let p ← anchorProperty {}
  let p ← tagProperty p
  if p.anchor.isNone then anchorProperty p else return p

def Properties.isEmpty (p : Properties) : Bool := p.anchor.isNone && p.tag.isNone

structure Place where
  block : Bool
  bareEntries : Bool := false

def finish (p : Properties) (node : Node) : Compose Node := do
  anchorNode p.anchor (some node)
  return node

mutual

-- Reads a node. Every reader of nodes and of their parts passes tokens before it comes to the next
-- one, so `fuel` need not be more than a few times their number.
def node : Nat → Place → Compose Node
  | 0, _ => failure
  | fuel + 1, place => do
      match ← peek with
      | some (.aliasOf name) => do
          advance
          match (← get).anchors.lookup name with
          | some target => return .aliasOf name target
          | none => failure
      | _ => do
          let p ← properties
          let tag := p.tag.getD none
          anchorNode p.anchor none
          match ← peek, place.block, place.bareEntries with
          | some (.scalar isPlain text), _, _ => do
              advance
              finish p (.scalar tag isPlain text)
          | some .flowSequenceStart, _, _ => do
              advance
              finish p (.sequence (← flowItems fuel true))
          | some .flowMappingStart, _, _ => do
              advance
              finish p (.mapping (← flowEntries fuel true))
          | some .blockEntry, _, true => do finish p (.sequence (← bareItems fuel))
          | some .blockSequenceStart, true, _ => do
              advance
              finish p (.sequence (← blockItems fuel))
          | some .blockMappingStart, true, _ => do
              advance
              finish p (.mapping (← blockEntries fuel))
          | _, _, _ => if p.isEmpty then failure else finish p (.scalar tag true "")

def nodeUnless : Nat → List Token → Place → Compose Node
  | 0, _, _ => failure
  | fuel + 1, ends, place => do
      if ← nextIs ends then return .empty else node fuel place

def blockItems : Nat → Compose (List Node)
  | 0 => failure
  | fuel + 1 => do
      if ← nextIs [.blockEntry] then
        advance
        let item ← nodeUnless fuel [.blockEntry, .blockEnd] ⟨true, false⟩
        let others ← blockItems fuel
        return item :: others
      else
        expect .blockEnd
        return []

def bareItems : Nat → Compose (List Node)
  | 0 => failure
  | fuel + 1 => do
      if ← nextIs [.blockEntry] then
        advance
        let item ← nodeUnless fuel [.blockEntry, .key, .value, .blockEnd] ⟨true, false⟩
        let others ← bareItems fuel
        return item :: others
      else return []

def blockEntries : Nat → Compose (List (Node × Node))
  | 0 => failure
  | fuel + 1 => do
      if ← nextIs [.key] then
        advance
        let key ← nodeUnless fuel [.key, .value, .blockEnd] ⟨true, true⟩
        let value ←
          if ← nextIs [.value] then do
            advance
            nodeUnless fuel [.key, .value, .blockEnd] ⟨true, true⟩
          else pure .empty
        let others ← blockEntries fuel
        return (key, value) :: others
      else
        expect .blockEnd
        return []

def flowValue : Nat → Token → Compose Node
  | 0, _ => failure
  | fuel + 1, close => do
      if ← nextIs [.value] then
        advance
        nodeUnless fuel [.flowEntry, close] ⟨false, false⟩
      else return .empty

def flowItem : Nat → Compose Node
  | 0 => failure
  | fuel + 1 => do
      if ← nextIs [.key] then
        advance
        let key ←
          if ← nextIs [.value, .flowEntry, .flowSequenceEnd] then do
            advance
            pure .empty
          else node fuel ⟨false, false⟩
        let value ← flowValue fuel .flowSequenceEnd
        return .mapping [(key, value)]
      else node fuel ⟨false, false⟩

def flowItems : Nat → Bool → Compose (List Node)
  | 0, _ => failure
  | fuel + 1, first => do
      if ← nextIs [.flowSequenceEnd] then
        advance
        return []
      else
        if !first then expect .flowEntry
        if ← nextIs [.flowSequenceEnd] then
          advance
          return []
        else
          let item ← flowItem fuel
          let others ← flowItems fuel false
          return item :: others

def flowPair : Nat → Compose (Node × Node)
  | 0 => failure
  | fuel + 1 => do
      if ← nextIs [.key] then
        advance
        let key ← nodeUnless fuel [.value, .flowEntry, .flowMappingEnd] ⟨false, false⟩
        let value ← flowValue fuel .flowMappingEnd
        return (key, value)
      else
        let key ← node fuel ⟨false, false⟩
        return (key, .empty)

def flowEntries : Nat → Bool → Compose (List (Node × Node))
  | 0, _ => failure
  | fuel + 1, first => do
      if ← nextIs [.flowMappingEnd] then
        advance
        return []
      else
        if !first then expect .flowEntry
        if ← nextIs [.flowMappingEnd] then
          advance
          return []
        else
          let pair ← flowPair fuel
          let others ← flowEntries fuel false
          return pair :: others

end

def directives : Nat → Bool → List (String × String) → Compose (List (String × String))
  | 0, _, _ => failure
  | fuel + 1, versioned, handles => do
      match ← peek with
      | some (.directive (.version major minor)) =>
          if versioned || major ≠ 1 || minor ≠ 1 then failure
          else do
            advance
            directives fuel true handles
      | some (.directive (.handle handle start)) =>
          if (handles.lookup handle).isSome then failure
          else do
            advance
            directives fuel versioned ((handle, start) :: handles)
      | _ => return handles

def isDirective : Option Token → Bool
  | some (.directive _) => true
  | _ => false

def atDocumentEnd : Compose Bool := do
  let next ← peek
  return next.isNone || isDirective next || next == some .documentStart || next == some .documentEnd

def document (fuel : Nat) : Compose (Option Node) := do
  let next ← peek
  if next.isNone then return none
  else
    let explicitStart := isDirective next || next == some .documentStart
    let handles ← directives fuel false []
    modify fun s => { s with handles := handles ++ [("!", "!"), ("!!", "tag:yaml.org,2002:")] }
    if explicitStart then expect .documentStart
    let root ←
      if explicitStart && (← atDocumentEnd) then pure Node.empty else node fuel ⟨true, false⟩
    let _ ← peek
    return some root

end Compose

def Node.ofText? (text : String) : Option (Option Node) := do
  let glyphs ← Glyph.ofText? text
  let tokens := Tokens.ofGlyphs glyphs
  let (root, _) ← (Compose.document (4 * tokens.list.length + 4)).run
    { tokens := tokens.list, complete := tokens.complete }
  return root

end Lemmata.Yaml
