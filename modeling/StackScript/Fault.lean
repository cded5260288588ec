import StackScript.Location
import StackScript.Text.Quoted

/-!
What can go wrong in a run: the kind of fault, its place in the program if known, and a detail.
-/
namespace StackScript

inductive Fault.Kind where
  | malformed
  | outOfMemory
  | indexOutOfRange
  | divisionByZero
  | typeMismatch
  | broken
  | unknownWord
  | unknownVariable
  | stackUnderflow
  | missingEnd
  | internal
  | fileNotFound
  | diskFailure
  | inputPastEnd
  deriving DecidableEq, Repr

def Fault.Kind.number : Fault.Kind → Nat
  | .malformed => 2
  | .outOfMemory => 7
  | .indexOutOfRange => 9
  | .divisionByZero => 11
  | .typeMismatch => 13
  | .broken => 17
  | .unknownWord => 18
  | .unknownVariable => 19
  | .stackUnderflow => 22
  | .missingEnd => 26
  | .internal => 51
  | .fileNotFound => 53
  | .diskFailure => 57
  | .inputPastEnd => 62

def Fault.Kind.title : Fault.Kind → String
  | .malformed => "SYNTAX ERROR"
  | .outOfMemory => "OUT OF MEMORY"
  | .indexOutOfRange => "INDEX OUT OF RANGE"
  | .divisionByZero => "DIVISION BY ZERO"
  | .typeMismatch => "TYPE MISMATCH"
  | .broken => "BREAK"
  | .unknownWord => "UNKNOWN WORD"
  | .unknownVariable => "UNKNOWN VARIABLE"
  | .stackUnderflow => "STACK UNDERFLOW"
  | .missingEnd => "BLOCK WITHOUT END"
  | .internal => "INTERNAL ERROR"
  | .fileNotFound => "FILE NOT FOUND"
  | .diskFailure => "DISK I/O ERROR"
  | .inputPastEnd => "INPUT PAST END"

/-- An empty `detail` says nothing beyond the kind. -/
structure Fault where
  kind : Fault.Kind
  place : Option Location := none
  detail : String := ""
  deriving DecidableEq, Repr

namespace Fault

def notNumber (text : String) : Fault :=
  { kind := .typeMismatch, detail := "NOT A NUMBER: " ++ Text.quoted text }

def shallowStack (size : Nat) : Fault :=
  { kind := .indexOutOfRange, detail := s!"ROLL 1 ON STACK OF {size}" }

def ofSystem (missing : Bool) (text : String) : Fault :=
  { kind := if missing then .fileNotFound else .diskFailure, detail := text }

/-- A fault keeps the place it has; one without takes `place`, if there is one. -/
def locate (fault : Fault) (place : Option Location) : Fault :=
  { fault with place := fault.place <|> place }

def message (fault : Fault) : String :=
  let place := match fault.place with
    | some place => " IN " ++ place.text
    | none => ""
  let detail := if fault.detail.isEmpty then "" else "; " ++ fault.detail
  fault.kind.title ++ place ++ detail

def inspect (fault : Fault) : String :=
  "Error \x7b " ++ fault.message ++ " \x7d"

end Fault
end StackScript
