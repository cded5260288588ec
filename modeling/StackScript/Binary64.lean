/-!
Binary floating point with 64 bits: the exact value behind the bits, the bits nearest to a ratio,
and the remainder of an exact division. A magnitude is the bit pattern without the sign, as a
number; magnitudes are ordered like the values they stand for.
-/
namespace StackScript.Binary64

def signBit : Nat := 0x8000000000000000

def infinity : Nat := 0x7ff0000000000000

/-- The least significand of full length. A magnitude below it is its own significand. -/
def leadingBit : Nat := 0x10000000000000

def magnitude (x : Float) : Nat :=
  x.toBits.toNat % signBit

def isNegative (x : Float) : Bool :=
  signBit ≤ x.toBits.toNat

def ofMagnitude (negative : Bool) (magnitude : Nat) : Float :=
  Float.ofBits (UInt64.ofNat (if negative then signBit + magnitude else magnitude))

structure Scaled where
  significand : Nat
  scale : Int
  deriving DecidableEq, Repr

def Scaled.ofMagnitude (magnitude : Nat) : Scaled :=
  if magnitude < leadingBit then ⟨magnitude, -1074⟩
  else ⟨leadingBit + magnitude % leadingBit, (magnitude / leadingBit : Nat) - 1075⟩

def Scaled.ratio (value : Scaled) : Nat × Nat :=
  (value.significand <<< value.scale.toNat, 1 <<< (-value.scale).toNat)

def roundHalfEven (num den : Nat) : Nat :=
  let whole := num / den
  let rest := num % den
  if den < 2 * rest || (2 * rest == den && whole % 2 == 1) then whole + 1 else whole

/-- The scale at which the significand of `num / den` has 53 bits, or the smallest there is. -/
def scaleOf (num den : Nat) : Int :=
  let scale : Int := (Nat.log2 num : Int) - Nat.log2 den - 53
  let scale := if den <<< (53 + scale).toNat ≤ num <<< (-(53 + scale)).toNat
    then scale + 1 else scale
  max scale (-1074)

/-- The magnitude nearest to `num / den`; a half goes to the even neighbour, and what is too great
becomes infinity. A carry out of the significand falls into the exponent bits above it. -/
def nearest (num den : Nat) : Nat :=
  if num = 0 then 0
  else
    let scale := scaleOf num den
    let significand := roundHalfEven (num <<< (-scale).toNat) (den <<< scale.toNat)
    min infinity ((scale + 1074).toNat * leadingBit + significand)

def notANumber : Float := 0.0 / 0.0

def remainder (x y : Float) : Float :=
  let a := magnitude x
  let b := magnitude y
  if infinity ≤ a || infinity < b || b == 0 then notANumber
  else if b == infinity then x
  else
    let dividend := Scaled.ofMagnitude a
    let divisor := Scaled.ofMagnitude b
    let scale := min dividend.scale divisor.scale
    let rest := (dividend.significand <<< (dividend.scale - scale).toNat) %
      (divisor.significand <<< (divisor.scale - scale).toNat)
    let (num, den) := Scaled.ratio ⟨rest, scale⟩
    ofMagnitude (isNegative x) (nearest num den)

end StackScript.Binary64
