import StackScript.Fault
import StackScript.Numeral

/-!
The values of a program. Text that reads as a number serves as one wherever a number is wanted.
-/
namespace StackScript

inductive Value where
  | number (n : Float)
  | string (s : String)
  deriving DecidableEq

namespace Value

def number? : Value → Option Float
  | .number n => some n
  | .string s => readNumber? s

def isNumeric (value : Value) : Bool :=
  value.number?.isSome

def text : Value → String
  | .number n => printNumber n
  | .string s => s

def toNumber (value : Value) : Except Fault Float :=
  match value.number? with
  | some n => .ok n
  | none => .error (.notNumber value.text)

/-- Every number but zero counts as true, also one that is not a number. -/
def isTruthy (value : Value) : Except Fault Bool :=
  value.toNumber.map fun n => n != 0.0

def ofBool (b : Bool) : Value :=
  .number (if b then 1.0 else 0.0)

def equals : Value → Value → Bool
  | .number m, .number n => m == n
  | .string s, .string t => s == t
  | _, _ => false

def compareNumbers? (m n : Float) : Option Ordering :=
  if m < n then some .lt
  else if m == n then some .eq
  else if n < m then some .gt
  else none

/-- Two values that both read as numbers compare as numbers, any others by the code points of their
texts. -/
def compare? (lhs rhs : Value) : Option Ordering :=
  match lhs.number?, rhs.number? with
  | some m, some n => compareNumbers? m n
  | _, _ => some (compare lhs.text rhs.text)

def not (value : Value) : Except Fault Value :=
  value.toNumber.map fun n => .ofBool (Bool.not (0.0 < n))

end Value

end StackScript
