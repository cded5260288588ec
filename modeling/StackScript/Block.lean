import StackScript.Program

/-!
Blocks: an opener is closed by the `end` that brings the nesting back to where it was, whatever the
kinds of the openers between them.
-/
namespace StackScript

structure Block where
  opener : Nat
  /-- Where the second branch of an `if` begins, at its `else`. -/
  middle : Option Nat
  close : Nat
  deriving DecidableEq, Repr

namespace Block

/-- Looks for the end of a block from `address` on, `depth` blocks deep. The first `else` met one
block deep is kept in `middle`. -/
def scan (program : Program) (limit depth : Nat) (middle : Option Nat) (address : Nat) :
    Option (Option Nat × Nat) :=
  if address < limit then
    match program.op? address with
    | some .close =>
      if depth ≤ 1 then some (middle, address)
      else scan program limit (depth - 1) middle (address + 1)
    | some .otherwise =>
      scan program limit depth
        (if depth = 1 then middle <|> some address else middle) (address + 1)
    | some op =>
      scan program limit (if op.opensBlock then depth + 1 else depth) middle (address + 1)
    | none => none
  else none
termination_by limit - address

/-- The block opened at `opener`, closed before `limit`; `branches` asks for its `else`. -/
def find (program : Program) (opener limit : Nat) (branches : Bool) : Except Fault Block :=
  match scan program (min limit program.size) 0 none opener with
  | some (middle, close) => .ok ⟨opener, if branches then middle else none, close⟩
  | none =>
    .error {
      kind := .missingEnd
      place := program.location? opener
      detail := ((program.op? opener).map Op.text).getD "" }

def body (block : Block) : Span :=
  ⟨block.opener + 1, block.middle.getD block.close⟩

def alternative (block : Block) : Option Span :=
  block.middle.map fun middle => ⟨middle + 1, block.close⟩

end Block
end StackScript
