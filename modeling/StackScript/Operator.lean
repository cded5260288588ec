import StackScript.Value

/-!
Arithmetic and comparison of two values.
-/
namespace StackScript

inductive Operator where
  | sum
  | difference
  | product
  | quotient
  | remainder
  | equal
  | greater
  | less
  deriving DecidableEq, Repr

namespace Operator

def symbol : Operator → String
  | .sum => "+"
  | .difference => "-"
  | .product => "*"
  | .quotient => "/"
  | .remainder => "%"
  | .equal => "="
  | .greater => ">"
  | .less => "<"

def calculate (f : Float → Float → Except Fault Float) (lhs rhs : Value) : Except Fault Value := do
  let m ← lhs.toNumber
  let n ← rhs.toNumber
  return .number (← f m n)

def dividing (f : Float → Float → Float) (m n : Float) : Except Fault Float :=
  if n == 0.0 then .error { kind := .divisionByZero } else .ok (f m n)

/-- `lhs` was pushed first. -/
def apply (operator : Operator) (lhs rhs : Value) : Except Fault Value :=
  match operator with
  | .sum => calculate (fun m n => .ok (m + n)) lhs rhs
  | .difference => calculate (fun m n => .ok (m - n)) lhs rhs
  | .product => calculate (fun m n => .ok (m * n)) lhs rhs
  | .quotient => calculate (dividing fun m n => m / n) lhs rhs
  | .remainder => calculate (dividing Binary64.remainder) lhs rhs
  | .equal => .ok (.ofBool (lhs.compare? rhs == some .eq))
  | .greater => .ok (.ofBool (lhs.compare? rhs == some .gt))
  | .less => .ok (.ofBool (lhs.compare? rhs == some .lt))

end Operator
end StackScript
