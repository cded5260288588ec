import StackScript.Op
import StackScript.Text.Lines

/-!
Programs: operations in a row, each at its address and with its place in the text.
-/
namespace StackScript

structure Instruction where
  op : Op
  row : Nat
  columns : Span
  deriving DecidableEq

structure Program where
  source : String
  code : Array Instruction
  deriving DecidableEq

namespace Program

def assemble (previous : Option Op) : List Token → List Instruction
  | [] => []
  | token :: tokens =>
    let op := (Op.ofWord token.text).after previous
    ⟨op, token.place.row, token.place.columns⟩ :: assemble (some op) tokens

def ofLines (source : String) (lines : List String) : Program :=
  ⟨source, (assemble none (Token.scan source lines)).toArray⟩

def ofText (source text : String) : Program :=
  ofLines source (Text.lines text)

def size (program : Program) : Nat :=
  program.code.size

def op? (program : Program) (address : Nat) : Option Op :=
  program.code[address]?.map Instruction.op

def location? (program : Program) (address : Nat) : Option Location :=
  program.code[address]?.map fun instruction =>
    ⟨program.source, instruction.row, instruction.columns⟩

def span (program : Program) : Span :=
  ⟨0, program.size⟩

def texts (program : Program) : List String :=
  program.code.toList.map fun instruction => instruction.op.text

def listing (program : Program) : String :=
  " ".intercalate program.texts

def inspect (program : Program) : String :=
  "[" ++ ", ".intercalate program.texts ++ "]"

end Program
end StackScript
