/-!
Styled text. A report is a list of pieces, each with the style it is shown in; only rendering
decides whether styles become terminal colours.
-/

set_option autoImplicit false

namespace Lemmata

inductive Style where
  | error
  | warning
  | rule
  | file
  | line
  | suggestion
  | plain
deriving DecidableEq, Repr

namespace Style

def codes : Style → String
  | error => "31;1"
  | warning => "93;1"
  | rule => "33;1"
  | file => "36;1"
  | line => "94;1"
  | suggestion => "32;1"
  | plain => "37"

def resetCodes : Style → String
  | plain => "0"
  | _ => "0;22"

end Style

-- A piece of text, with no style at all for bare text.
structure Piece where
  style : Option Style
  text : String
deriving DecidableEq, Repr

abbrev Styled := List Piece

def Style.piece (style : Style) (text : String) : Piece := ⟨some style, text⟩

def Piece.bare (text : String) : Piece := ⟨none, text⟩

def Piece.render (coloured : Bool) (piece : Piece) : String :=
  match coloured, piece.style with
  | true, some style =>
      "\x1b[" ++ style.codes ++ "m" ++ piece.text ++ "\x1b[" ++ style.resetCodes ++ "m"
  | _, _ => piece.text

def Styled.render (coloured : Bool) (pieces : Styled) : String :=
  String.join (pieces.map (Piece.render coloured))

end Lemmata
