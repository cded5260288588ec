import StackScript.Machine

/-!
Execution in steps: one operation, or the end of a block, at a time. A step either passes quietly or
ends with an event for whoever drives the machine.
-/
namespace StackScript

inductive Event where
  /-- Nothing is left to run. -/
  | stopped
  /-- The steps granted are used up. -/
  | running
  | print (text : String)
  | ask (request : Request)
  | failed (fault : Fault)
  deriving DecidableEq, Repr

namespace Machine

def report (m : Machine) (fault : Fault) : Machine × Option Event :=
  (m.stop, some (.failed fault))

def begin (m : Machine) (place : Option Location) (frame : Frame) : Machine × Option Event :=
  match m.open? frame with
  | .ok m => (m, none)
  | .error fault => m.report (fault.locate place)

def follow (m : Machine) (place : Option Location) : Control → Machine × Option Event
  | .proceed | .jump _ => (m, none)
  | .print text => (m, some (.print text))
  | .ask request => ({ m with request := some request }, some (.ask request))
  | .enter _ frame => m.begin place frame

def perform (m : Machine) (frame : Frame) (op : Op) : Machine × Option Event :=
  let place := frame.program.location? frame.next
  match op.perform ⟨frame.program, frame.next, frame.span.stop, frame.scope⟩ m.store with
  | .error fault store => report { m with store } (fault.locate place)
  | .ok control store =>
    let frames := m.frames.modifyTop (·.resumeAt (control.resume frame.next))
    follow { m with store, frames } place control

def advance (m : Machine) (frame : Frame) : Machine × Option Event :=
  match frame.program.op? frame.next with
  | none => m.report { kind := .internal, detail := "ADDRESS OUT OF RANGE" }
  | some op =>
    if frame.kind.isTopLevel && !op.isTopLevel then
      ({ m with frames := m.frames.modifyTop (·.resumeAt (frame.next + 1)) }, none)
    else m.perform frame op

def successor? (m : Machine) (frame : Frame) : Option Body :=
  if frame.kind = .entry then m.store.functions["main"]? else none

def close (m : Machine) (frame : Frame) : Machine :=
  { m with
    store := { m.store with
      scopes := if frame.kind.ownsScope then m.store.scopes.leave frame.scope else m.store.scopes }
    frames := m.frames.drop }

/-- Ends `frame`, the newest one. What follows it starts on an empty stack of values. -/
def leave (m : Machine) (frame : Frame) : Machine × Option Event :=
  let m := m.close frame
  match m.successor? frame with
  | some body =>
    begin { m with store := { m.store with values := .empty } }
      (frame.program.location? frame.span.stop)
      (.start .block body.program body.span frame.scope)
  | none => (m, if m.isRunning then none else some .stopped)

def finish (m : Machine) (frame : Frame) : Machine × Option Event :=
  let again := if frame.kind = .loop then m.store.wantsLoop else .ok false
  match again with
  | .error fault => m.report (fault.locate (frame.program.location? frame.span.stop))
  | .ok true => ({ m with frames := m.frames.modifyTop (·.resumeAt frame.span.start) }, none)
  | .ok false => m.leave frame

def step (m : Machine) : Machine × Option Event :=
  match m.frames.top? with
  | none => (m, some .stopped)
  | some frame => if frame.next < frame.span.stop then m.advance frame else m.finish frame

def run (m : Machine) : Nat → Machine × Event
  | 0 => (m, .running)
  | cycles + 1 =>
    match m.step with
    | (m, some event) => (m, event)
    | (m, none) => m.run cycles

/-- Reports what is waiting to be reported; only if nothing is, runs up to `cycles` steps. -/
def execute (m : Machine) (cycles : Nat) : Machine × Event :=
  match m.fault, m.request with
  | some fault, _ => ({ m with fault := none }, .failed fault)
  | none, some request => (m, .ask request)
  | none, none =>
    if m.isRunning && m.interrupted then
      (m.stop, .failed (Fault.locate { kind := .broken } m.lastPlace))
    else if m.isRunning then m.run cycles
    else (m, .stopped)

end Machine
end StackScript
