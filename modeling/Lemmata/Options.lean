import Lemmata.Config
import Lemmata.Text.Numeral

/-!
The words of a command line: the command, its options and its arguments. Options may stand before
and between the arguments, and two dashes alone end them.
-/

set_option autoImplicit false

namespace Lemmata

structure Options where
  config : String := Config.defaultPath
  timeout : Int := 300000000000
  verbose : Bool := false
  help : Bool := false
  ignoreRules : String := ""
  ignoreLabels : String := ""
  json : Bool := false
  output : String := ""
  noCache : Bool := false
  watch : Bool := false
  metricsAddress : String := ""
  workers : Int := 0
  step : Int := -1
  inPlace : Bool := false
deriving DecidableEq, Repr

inductive CommandName where
  | bare
  | init
  | verify
  | inspect
  | compress
  | decompress
  | help
deriving DecidableEq, Repr

def CommandName.ofWord? : String → Option CommandName
  | "init" => some .init
  | "verify" => some .verify
  | "show" => some .inspect
  | "compress" => some .compress
  | "decompress" => some .decompress
  | "help" => some .help
  | "completion" => some .help
  | _ => none

-- An option. A switch needs no value, and then counts as switched on.
structure Flag where
  name : String
  letter : Option Char := none
  isSwitch : Bool := false
  set : String → Options → Option Options

namespace Flag

def truth? : String → Option Bool
  | "1" | "t" | "T" | "TRUE" | "true" | "True" => some true
  | "0" | "f" | "F" | "FALSE" | "false" | "False" => some false
  | _ => none

def switch (name : String) (letter : Option Char) (set : Options → Bool → Options) : Flag :=
  ⟨name, letter, true, fun value o => (truth? value).map (set o)⟩

def text (name : String) (letter : Option Char) (set : Options → String → Options) : Flag :=
  ⟨name, letter, false, fun value o => some (set o value)⟩

def number (name : String) (set : Options → Int → Options) : Flag :=
  ⟨name, none, false, fun value o => (Text.int64? value).map (set o)⟩

def shared : List Flag := [
  text "config" none fun o s => { o with config := s },
  ⟨"timeout", none, false, fun value o =>
    (Duration.parse? value).map fun n => { o with timeout := n }⟩,
  switch "verbose" (some 'v') fun o b => { o with verbose := b }]

def help : Flag := switch "help" (some 'h') fun o b => { o with help := b }

def output : Flag := text "output" (some 'o') fun o s => { o with output := s }

end Flag

namespace CommandName

def ownFlags : CommandName → List Flag
  | verify => [
      Flag.text "ignore-rules" none fun o s => { o with ignoreRules := s },
      Flag.text "ignore" none fun o s => { o with ignoreLabels := s },
      Flag.switch "json" none fun o b => { o with json := b },
      Flag.output,
      Flag.switch "no-cache" none fun o b => { o with noCache := b },
      Flag.switch "watch" none fun o b => { o with watch := b },
      Flag.text "metrics-addr" none fun o s => { o with metricsAddress := s },
      Flag.number "workers" fun o n => { o with workers := n }]
  | inspect => [Flag.number "step" fun o n => { o with step := n }]
  | compress | decompress =>
      [Flag.output, Flag.switch "write" (some 'w') fun o b => { o with inPlace := b }]
  | _ => []

def flags (c : CommandName) : List Flag := c.ownFlags ++ Flag.shared ++ [Flag.help]

def admits (c : CommandName) (count : Nat) : Bool :=
  match c with
  | inspect => count == 2
  | compress | decompress => 1 ≤ count
  | _ => true

end CommandName

/-! ### Words -/

structure Words where
  options : Options
  arguments : List String := []
deriving DecidableEq, Repr

namespace Words

def splitValue (chars : List Char) : String × Option String :=
  let name := String.ofList (chars.takeWhile (· != '='))
  match chars.dropWhile (· != '=') with
  | _ :: value => (name, some (String.ofList value))
  | [] => (name, none)

abbrev Step := Option (Options × List String)

def setFlag (flag : Flag) (attached : Option String) (rest : List String) (o : Options) : Step :=
  match attached, flag.isSwitch, rest with
  | some value, _, _ => (flag.set value o).map (·, rest)
  | none, true, _ => (flag.set "true" o).map (·, rest)
  | none, false, value :: behind => (flag.set value o).map (·, behind)
  | none, false, [] => none

def longFlag (flags : List Flag) (chars : List Char) (rest : List String) (o : Options) : Step :=
  let (name, value) := splitValue chars
  match flags.find? (·.name == name) with
  | some flag => if name = "" then none else setFlag flag value rest o
  | none => none

def letters (flags : List Flag) : List Char → List String → Options → Step
  | [], rest, o => some (o, rest)
  | c :: more, rest, o => do
      let flag ← flags.find? (·.letter == some c)
      match more with
      | '=' :: value@(_ :: _) => setFlag flag (some (String.ofList value)) rest o
      | _ =>
          if flag.isSwitch then
            let (o, rest) ← setFlag flag none rest o
            letters flags more rest o
          else setFlag flag (if more.isEmpty then none else some (String.ofList more)) rest o

-- Reads words. A dash alone is an argument. Each step takes a word, so `fuel` need not exceed
-- their number.
def readFrom (flags : List Flag) : Nat → Words → List String → Option Words
  | _, w, [] => some w
  | 0, _, _ => none
  | fuel + 1, w, word :: rest =>
      let next (step : Step) : Option Words := do
        let (options, behind) ← step
        readFrom flags fuel { w with options } behind
      match word.toList with
      | ['-', '-'] => some { w with arguments := w.arguments ++ rest }
      | '-' :: '-' :: chars => next (longFlag flags chars rest w.options)
      | '-' :: c :: chars => next (letters flags (c :: chars) rest w.options)
      | _ => readFrom flags fuel { w with arguments := w.arguments ++ [word] } rest

def read (flags : List Flag) (options : Options) (words : List String) : Option Words :=
  readFrom flags words.length { options } words

end Words

/-! ### The command -/

structure Invocation where
  command : CommandName
  words : Words
deriving DecidableEq, Repr

namespace Invocation

def isSwitchName (name : String) : Bool := Flag.shared.any fun f => f.isSwitch && f.name == name

def isSwitchLetter (letter : Char) : Bool :=
  Flag.shared.any fun f => f.isSwitch && f.letter == some letter

def split : Bool → List String → List String → Option (CommandName × List String × List String)
  | _, _, [] => none
  | isValue, before, word :: rest =>
      let goOn (isValue : Bool) := split isValue (before ++ [word]) rest
      let named : Option (CommandName × List String × List String) :=
        (CommandName.ofWord? word).map (·, before, rest)
      match word.toList with
      | '-' :: '-' :: chars =>
          if !chars.contains '=' then goOn (!isSwitchName (String.ofList chars))
          else goOn false
      | ['-', c] => goOn (c != '=' && c.utf8Size == 1 && !isSwitchLetter c)
      | '-' :: _ :: _ => goOn false
      | _ => if isValue then goOn false else named

-- Reads a command line; nothing if it is not understood. Without a command, all words belong to
-- the bare program.
def read (words : List String) : Option Invocation := do
  let (command, before, behind) := (split false [] words).getD (.bare, [], words)
  let shared ← Words.read Flag.shared {} before
  let own ← Words.read command.flags shared.options behind
  if own.options.help then return ⟨.help, own⟩
  else if command.admits own.arguments.length then return ⟨command, own⟩
  else none

end Invocation

end Lemmata
