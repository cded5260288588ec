import StackScript.Store

/-!
Frames: the blocks that are running, each inside the one below it.
-/
namespace StackScript

inductive Frame.Kind where
  /-- The top level of the program, which starts `main` when it is done. -/
  | entry
  /-- The top level of an attached program. -/
  | attached
  /-- The branch of an `if`, the body of `main`, or statements run directly. -/
  | block
  | call
  /-- The body of a loop, run again while the top value is true. -/
  | loop
  deriving DecidableEq, Repr

/-- Whether only definitions, declarations, literals and attached programs count. -/
def Frame.Kind.isTopLevel : Frame.Kind → Bool
  | .entry | .attached => true
  | _ => false

def Frame.Kind.ownsScope : Frame.Kind → Bool
  | .call | .loop => true
  | _ => false

structure Frame where
  kind : Frame.Kind
  program : Program
  span : Span
  /-- The address to go on at. -/
  next : Nat
  scope : Nat
  deriving DecidableEq

namespace Frame

def start (kind : Frame.Kind) (program : Program) (span : Span) (scope : Nat) : Frame :=
  ⟨kind, program, span, span.start, scope⟩

def resumeAt (address : Nat) (frame : Frame) : Frame :=
  { frame with next := address }

def lastPlace (frame : Frame) : Option Location :=
  frame.program.location? (frame.next - 1)

end Frame
end StackScript
