import StackScript.Proofs.Session

/-!
Blocks as recursive programs: every block that begins inside another is run to its end on the spot,
with no saved addresses. `Frame.exec` is the meaning of a block that has just been entered.
-/
namespace StackScript

structure World where
  store : Store
  answers : List Answer
  shown : List Event

namespace World

def shows (w : World) (event : Event) : World :=
  { w with shown := w.shown ++ [event] }

def push (w : World) (value : Value) : World :=
  { w with store := { w.store with values := w.store.values.push value } }

def within (w : World) (parent : Nat) : World :=
  { w with store := { w.store with scopes := w.store.scopes.enter parent } }

def without (scope : Nat) (w : World) : World :=
  { w with store := { w.store with scopes := w.store.scopes.leave scope } }

def unwound (w : World) : World :=
  { w with store := { w.store with scopes := w.store.scopes.unwind } }

def clearValues (w : World) : World :=
  { w with store := { w.store with values := .empty } }

/-- Whether a loop runs its body (again): if the top value is true, but not without any value. -/
def again (w : World) : Except Fault Bool :=
  match w.store.values.items with
  | value :: _ => value.isTruthy
  | [] => .ok false

end World

inductive Outcome where
  | done (world : World)
  | failed (fault : Fault) (world : World)
  /-- There is no answer to a request, or not of its kind. -/
  | waiting (request : Request) (world : World)
  /-- The recursion was cut off. -/
  | unfinished

def Outcome.bind : Outcome → (World → Outcome) → Outcome
  | .done w, next => next w
  | other, _ => other

/-- What the operations of a block have in common. `depth` blocks are open, this one included. -/
structure Setting where
  program : Program
  stop : Nat
  scope : Nat
  harvests : Bool
  depth : Nat

namespace Setting

def place (here : Setting) (address : Nat) : Option Location :=
  here.program.location? address

def site (here : Setting) (address : Nat) : Site :=
  ⟨here.program, address, here.stop, here.scope⟩

def branch (here : Setting) (span : Span) : Setting :=
  { here with stop := span.stop, harvests := false, depth := here.depth + 1 }

def child (here : Setting) (program : Program) (span : Span) (scope : Nat) : Setting :=
  ⟨program, span.stop, scope, false, here.depth + 1⟩

def attached (here : Setting) (program : Program) : Setting :=
  ⟨program, program.size, here.scope, true, here.depth + 1⟩

def fail (here : Setting) (address : Nat) (fault : Fault) (w : World) : Outcome :=
  .failed (fault.locate (here.place address)) w.unwound

def attempt (here : Setting) (address : Nat) {α : Type} (change : Change α) (w : World)
    (next : α → World → Outcome) : Outcome :=
  match change w.store with
  | .ok a store => next a { w with store }
  | .error fault store => here.fail address fault { w with store }

def perform (here : Setting) (address : Nat) (op : Op) (w : World)
    (next : Nat → World → Outcome) : Outcome :=
  here.attempt address (op.perform (here.site address)) w fun control w =>
  match control with
  | .jump target => next target w
  | .print text => next (address + 1) (w.shows (.print text))
  | _ => next (address + 1) w

def nest (here : Setting) (address : Nat) (w : World) (inner next : World → Outcome) : Outcome :=
  if Stack.capacity ≤ here.depth then here.fail address Machine.overflow w else (inner w).bind next

def inScope (here : Setting) (inner : Nat → World → Outcome) (w : World) : Outcome :=
  let scope := w.store.scopes.depth
  (inner scope (w.within here.scope)).bind fun w => .done (w.without scope)

def askLine (here : Setting) (address : Nat) (w : World) (next : World → Outcome) : Outcome :=
  let w := w.shows (.ask .line)
  match w.answers with
  | .line text :: answers => next ({ w with answers }.push (.string text))
  | .fault fault :: answers => here.fail address fault { w with answers }
  | _ => .waiting .line w

def askProgram (here : Setting) (address : Nat) (path : String) (w : World)
    (next : Program → World → Outcome) : Outcome :=
  let w := w.shows (.ask (.program path))
  match w.answers with
  | .program program :: answers => next program { w with answers }
  | .fault fault :: answers => here.fail address fault { w with answers }
  | _ => .waiting (.program path) w

mutual

def exec : Nat → Setting → Nat → World → Outcome
  | 0, _, _, _ => .unfinished
  | fuel + 1, here, address, w =>
    if address < here.stop then
      match here.program.op? address with
      | none => .failed { kind := .internal, detail := "ADDRESS OUT OF RANGE" } w.unwound
      | some op =>
        if here.harvests && !op.isTopLevel then exec fuel here (address + 1) w
        else
          match op with
          | .branch =>
            here.attempt address Change.pop w fun value w =>
            here.attempt address (Change.require value.isTruthy) w fun condition w =>
            here.attempt address ((here.site address).block true) w fun block w =>
            match if condition then some block.body else block.alternative with
            | some span =>
              here.nest address w (exec fuel (here.branch span) span.start)
                (exec fuel here (block.close + 1))
            | none => exec fuel here (block.close + 1) w
          | .loop =>
            here.attempt address ((here.site address).block false) w fun block w =>
            here.attempt address (Change.require w.again) w fun again w =>
            if again then
              here.nest address w
                (here.inScope fun scope =>
                  execLoop fuel (here.child here.program block.body scope) block.body.start)
                (exec fuel here (block.close + 1))
            else exec fuel here (block.close + 1) w
          | .input => here.askLine address w (exec fuel here (address + 1))
          | .attach =>
            here.attempt address Change.pop w fun path w =>
            here.askProgram address path.text w fun program w =>
            here.nest address w (exec fuel (here.attached program) 0)
              (exec fuel here (address + 1))
          | .word name =>
            match w.store.functions[name]? with
            | some body =>
              here.nest address w
                (here.inScope fun scope =>
                  exec fuel (here.child body.program body.span scope) body.span.start)
                (exec fuel here (address + 1))
            | none => here.perform address (.word name) w (exec fuel here)
          | op => here.perform address op w (exec fuel here)
    else .done w

def execLoop : Nat → Setting → Nat → World → Outcome
  | 0, _, _, _ => .unfinished
  | fuel + 1, here, start, w =>
    (exec fuel here start w).bind fun w =>
    here.attempt here.stop (Change.require w.again) w fun again w =>
    if again then execLoop fuel here start w else .done w

end

end Setting

namespace Frame

def setting (frame : Frame) (outer : Nat) : Setting :=
  ⟨frame.program, frame.span.stop, frame.scope, frame.kind.isTopLevel, outer + 1⟩

def exec (fuel outer : Nat) (frame : Frame) (w : World) : Outcome :=
  let here := frame.setting outer
  let start := frame.span.start
  match frame.kind with
  | .block | .attached => here.exec fuel start w
  | .call => (here.exec fuel start w).bind fun w => .done (w.without frame.scope)
  | .loop => (here.execLoop fuel start w).bind fun w => .done (w.without frame.scope)
  | .entry =>
    (here.exec fuel start w).bind fun w =>
    match w.store.functions["main"]? with
    | some body =>
      if Stack.capacity ≤ outer then here.fail here.stop Machine.overflow w.clearValues
      else
        ({ here with program := body.program, stop := body.span.stop, harvests := false }).exec fuel
          body.span.start w.clearValues
    | none => .done w

end Frame

namespace Setting

variable {here : Setting} {address : Nat} {w : World}

def follow (fuel : Nat) (here : Setting) (address : Nat) (control : Control) (w : World) : Outcome :=
  match control with
  | .proceed => exec fuel here (address + 1) w
  | .jump target => exec fuel here target w
  | .print text => exec fuel here (address + 1) (w.shows (.print text))
  | .ask .line => here.askLine address w (exec fuel here (address + 1))
  | .ask (.program path) =>
    here.askProgram address path w fun program w =>
    here.nest address w (exec fuel (here.attached program) 0) (exec fuel here (address + 1))
  | .enter resume inner => here.nest address w (inner.exec fuel here.depth) (exec fuel here resume)

end Setting
end StackScript
