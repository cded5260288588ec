import StackScript.Decimal
import StackScript.Text.Blank

/-!
Numbers as text. Reading: an optional sign, digits with an optional point, and an optional power of
ten, with blanks around it. Writing: the shortest digits that are read back, with a power of ten
where the positional form would be long.
-/
namespace StackScript

structure Numeral where
  negative : Bool
  whole : List Char
  fraction : List Char
  exponent : Int
  deriving DecidableEq, Repr

namespace Numeral

def digitsValue (digits : List Char) : Nat :=
  digits.foldl (fun value c => 10 * value + (c.toNat - '0'.toNat)) 0

def splitSign : List Char → Bool × List Char
  | '-' :: cs => (true, cs)
  | '+' :: cs => (false, cs)
  | cs => (false, cs)

def exponent? : List Char → Option Int
  | [] => some 0
  | c :: cs =>
    let (negative, digits) := splitSign cs
    if (c == 'e' || c == 'E') && !digits.isEmpty && digits.all Char.isDigit then
      some (if negative then -(digitsValue digits : Int) else digitsValue digits)
    else none

def ofChars? (cs : List Char) : Option Numeral :=
  let (negative, cs) := splitSign cs
  let whole := cs.takeWhile Char.isDigit
  let (fraction, rest) := match cs.dropWhile Char.isDigit with
    | '.' :: cs => (cs.takeWhile Char.isDigit, cs.dropWhile Char.isDigit)
    | cs => ([], cs)
  if whole.isEmpty && fraction.isEmpty then none
  else (exponent? rest).map fun exponent => ⟨negative, whole, fraction, exponent⟩

def decimal (numeral : Numeral) : Decimal :=
  ⟨digitsValue (numeral.whole ++ numeral.fraction), numeral.exponent - numeral.fraction.length⟩

def value (numeral : Numeral) : Float :=
  Binary64.ofMagnitude numeral.negative numeral.decimal.magnitude

structure Style where
  notANumber : String
  /-- Stands before an exponent that is not negative. -/
  plus : List Char
  /-- Shorter exponents get zeros in front. -/
  exponentWidth : Nat

def printed : Style := ⟨"nan", ['+'], 2⟩

def listed : Style := ⟨"NaN", [], 1⟩

def positional (value : Decimal) : List Char :=
  let digits := value.digitChars
  let point := value.point
  if point ≤ 0 then '0' :: '.' :: List.replicate (-point).toNat '0' ++ digits
  else if digits.length ≤ point then
    digits ++ List.replicate (point.toNat - digits.length) '0' ++ ['.', '0']
  else digits.take point.toNat ++ '.' :: digits.drop point.toNat

def scientific (style : Style) (value : Decimal) : List Char :=
  let fraction := match value.digitChars.drop 1 with
    | [] => []
    | digits => '.' :: digits
  let exponent := value.point - 1
  let power := Nat.toDigits 10 exponent.natAbs
  value.digitChars.take 1 ++ fraction ++ 'e' :: (if exponent < 0 then ['-'] else style.plus) ++
    List.replicate (style.exponentWidth - power.length) '0' ++ power

def isPositional (x : Float) : Bool :=
  x == 0.0 || (1e-4 ≤ x.abs && x.abs < 1e16)

def write (style : Style) (x : Float) : String :=
  let magnitude := Binary64.magnitude x
  let sign := if Binary64.isNegative x then ['-'] else []
  if Binary64.infinity < magnitude then style.notANumber
  else if magnitude == Binary64.infinity then String.ofList (sign ++ ['i', 'n', 'f'])
  else
    let value := Decimal.shortest magnitude
    String.ofList (sign ++ if isPositional x then positional value else scientific style value)

end Numeral

def readNumber? (text : String) : Option Float :=
  (Numeral.ofChars? (Text.trim text.toList)).map Numeral.value

def printNumber (x : Float) : String :=
  Numeral.write Numeral.printed x

end StackScript
