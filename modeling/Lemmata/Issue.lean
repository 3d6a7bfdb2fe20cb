import Lemmata.Text.Quoted
import Lemmata.Text.Word

/-!
Severities, and the issues and results that have them. A larger rank is worse. A severity may be read
from a configuration, where `off` disables a rule, or from a stored rank that has no name.
-/

set_option autoImplicit false

namespace Lemmata

inductive Severity where
  | ok
  | incomplete
  | error
  | severe
  | off
  | unknown (rank : Int)
deriving DecidableEq, Repr, Inhabited

namespace Severity

def rank : Severity → Int
  | ok => 0
  | incomplete => 1
  | error => 2
  | severe => 3
  | off => 4
  | unknown n => n

def ofRank : Int → Severity
  | 0 => ok
  | 1 => incomplete
  | 2 => error
  | 3 => severe
  | 4 => off
  | n => unknown n

-- The worse of the two; the first one when their ranks agree.
def worse (a b : Severity) : Severity := if a.rank < b.rank then b else a

def isFailure (s : Severity) : Bool := 2 ≤ s.rank

def name : Severity → String
  | ok => "OK"
  | incomplete => "INCOMPLETE"
  | error => "ERROR"
  | severe => "SEVERE"
  | off => "OFF"
  | unknown _ => "UNKNOWN"

def text : Severity → String
  | ok => "ok"
  | incomplete => "incomplete"
  | error => "error"
  | severe => "severe"
  | off => "off"
  | unknown _ => "unknown"

-- Upper case, as far as a name can need it: the long s and the dotless i are the only other
-- characters whose capital is an ASCII letter.
def capital (c : Char) : Char :=
  if c.toNat = 0x17F then 'S' else if c.toNat = 0x131 then 'I' else c.toUpper

def parse (text : String) : Option Severity :=
  let wanted := (Text.trim text).toList.map capital
  [ok, incomplete, error, severe, off].find? fun s => s.name.toList == wanted

def parseError (text : String) : String := "unknown severity " ++ Text.quoted text

theorem rank_worse (a b : Severity) : (a.worse b).rank = max a.rank b.rank := by
  unfold worse
  split <;> omega

end Severity

namespace Rule

def decodeError : String := "decode-error"
def unificationFailure : String := "unification-failure"
def ambiguousUnification : String := "ambiguous-unification"
def disjointViolation : String := "disjoint-violation"
def resultMismatch : String := "result-mismatch"
def stackUnderflow : String := "stack-underflow"
def verifierError : String := "verifier-error"

end Rule

structure Issue where
  rule : String := ""
  category : String := ""
  database : String := ""
  label : String := ""
  -- The step of the proof; negative when no step is concerned.
  step : Int := 0
  applied : String := ""
  message : String := ""
  suggestion : String := ""
  note : String := ""
  severity : Severity := .ok
deriving DecidableEq, Repr

structure Result where
  label : String := ""
  verdict : Severity := .ok
  steps : Int := 0
  issues : List Issue := []
  suppressed : Int := 0
  cached : Bool := false
deriving DecidableEq, Repr

end Lemmata
