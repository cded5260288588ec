import StackScript.Binary64

/-!
Decimal numbers `digits * 10 ^ exponent`, and the way to and from binary ones: the nearest binary
number of a decimal, and the shortest decimal that is read back as a given binary number.
-/
namespace StackScript

structure Decimal where
  digits : Nat
  exponent : Int
  deriving DecidableEq, Repr

namespace Decimal

def stripZeros (digits : Nat) (exponent : Int) : Decimal :=
  if digits = 0 then ⟨0, 0⟩
  else if digits % 10 = 0 then stripZeros (digits / 10) (exponent + 1)
  else ⟨digits, exponent⟩
termination_by digits

def normal (value : Decimal) : Decimal :=
  stripZeros value.digits value.exponent

def digitChars (value : Decimal) : List Char :=
  Nat.toDigits 10 value.digits

/-- How many digits stand before the point: negative when zeros follow the point. -/
def point (value : Decimal) : Int :=
  value.digitChars.length + value.exponent

def ratio (value : Decimal) : Nat × Nat :=
  (value.digits * Nat.pow 10 value.exponent.toNat, Nat.pow 10 (-value.exponent).toNat)

/-- The nearest binary magnitude. Far outside the range of binary numbers, where the powers of ten
would only cost time, it is infinity or zero. -/
def magnitude (value : Decimal) : Nat :=
  let value := value.normal
  if value.digits = 0 then 0
  else if 310 < value.point then Binary64.infinity
  else if value.point < -326 then 0
  else
    let (num, den) := value.ratio
    Binary64.nearest num den

def ofScaled (value : Binary64.Scaled) : Decimal :=
  if 0 ≤ value.scale then ⟨value.significand <<< value.scale.toNat, 0⟩
  else ⟨value.significand * Nat.pow 5 (-value.scale).toNat, value.scale⟩

/-- The number of digits before the point of a value that is not zero. Its binary logarithm gives the
number or the one below, and a comparison settles which. -/
def pointOf (value : Binary64.Scaled) : Int :=
  let (num, den) := value.ratio
  let log2 : Int := Nat.log2 value.significand + value.scale
  let guess := log2 * 30103 / 100000
  if den * Nat.pow 10 (guess + 1).toNat ≤ num * Nat.pow 10 (-(guess + 1)).toNat then guess + 2
  else guess + 1

/-- The decimal with the given exponent nearest to the value among the two around it that are read
back as `magnitude`; of two equally near the greater. -/
def around? (magnitude : Nat) (value : Binary64.Scaled) (exponent : Int) : Option Decimal :=
  let (num, den) := value.ratio
  let num := num * Nat.pow 10 (-exponent).toNat
  let den := den * Nat.pow 10 exponent.toNat
  let below : Decimal := ⟨num / den, exponent⟩
  let above : Decimal := ⟨num / den + 1, exponent⟩
  let nearBelow := 2 * (num % den) < den
  let first := if nearBelow then below else above
  let second := if nearBelow then above else below
  if first.magnitude = magnitude then some first
  else if second.magnitude = magnitude then some second
  else none

def search (magnitude : Nat) (value : Binary64.Scaled) (exponent : Int) : Nat → Option Decimal
  | 0 => none
  | count + 1 =>
    match around? magnitude value exponent with
    | some found => some found
    | none => search magnitude value (exponent - 1) count

/-- The shortest decimal that is read back as `magnitude`, which is below infinity. Seventeen digits
always suffice; the exact decimal stands behind them. -/
def shortest (magnitude : Nat) : Decimal :=
  if magnitude = 0 then ⟨0, 0⟩
  else
    let value := Binary64.Scaled.ofMagnitude magnitude
    ((search magnitude value (pointOf value - 1) 17).getD (ofScaled value)).normal

end Decimal
end StackScript
