import StackScript.Operator
import StackScript.Token

/-!
The operations of a program, and how words of program text become operations.
-/
namespace StackScript

inductive Op where
  | push (value : Value)
  | dup
  | pop
  /-- Brings the second value to the top. -/
  | roll
  | apply (operator : Operator)
  | not
  | dump
  | write
  | input
  | branch
  | otherwise
  | close
  | loop
  | define
  /-- Names the function of the `define` before it. -/
  | functionName (name : String)
  | attach
  | declare
  /-- Names the variable of the `declare` before it. -/
  | variableName (name : String)
  /-- Gives the variable whose name is on top the value below. -/
  | assign
  /-- Calls a function or reads a variable. -/
  | word (name : String)
  deriving DecidableEq

namespace Op

def text : Op → String
  | .push (.number n) => Numeral.write Numeral.listed n
  | .push (.string s) => Text.quoted s
  | .dup => "dup"
  | .pop => "pop"
  | .roll => ":"
  | .apply operator => operator.symbol
  | .not => "not"
  | .dump => "."
  | .write => "write"
  | .input => "input"
  | .branch => "if"
  | .otherwise => "else"
  | .close => "end"
  | .loop => "while"
  | .define => "func"
  | .functionName name => name
  | .attach => "attach"
  | .declare => "var"
  | .variableName name => name
  | .assign => "@"
  | .word name => name

def keywords : List Op :=
  [.apply .sum, .apply .difference, .apply .product, .apply .quotient, .apply .remainder,
    .apply .equal, .apply .greater, .apply .less, .not, .dump, .write, .dup, .pop, .roll, .branch,
    .otherwise, .close, .loop, .define, .input, .attach, .declare, .assign]

def ofKeyword? (word : String) : Option Op :=
  keywords.find? fun op => op.text == word

/-- A keyword, a number or a literal; any other word is a name. -/
def ofWord (word : String) : Op :=
  match ofKeyword? word with
  | some op => op
  | none =>
    match readNumber? word with
    | some n => .push (.number n)
    | none =>
      match literal? word with
      | some s => .push (.string s)
      | none => .word word

/-- A name right after `func` or `var` is what is defined or declared. -/
def after (previous : Option Op) : Op → Op
  | .word name =>
    match previous with
    | some .define => .functionName name
    | some .declare => .variableName name
    | _ => .word name
  | op => op

def opensBlock : Op → Bool
  | .branch | .loop | .define => true
  | _ => false

def isTopLevel : Op → Bool
  | .push _ | .define | .declare | .attach => true
  | _ => false

end Op
end StackScript
