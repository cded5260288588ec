import StackScript.Op.Perform

/-!
The machine: what is running, what it waits for, and how runs are started, answered and stopped.
-/
namespace StackScript

structure Machine where
  store : Store := {}
  frames : Stack Frame := .empty
  /-- What has been asked for and not been answered yet. -/
  request : Option Request := none
  /-- What went wrong between two executions, to be reported by the next. -/
  fault : Option Fault := none
  interrupted : Bool := false

namespace Machine

def isRunning (m : Machine) : Bool :=
  !m.frames.isEmpty

def global? (m : Machine) (name : String) : Option Value :=
  m.store.scopes.get? 0 name

def lastPlace (m : Machine) : Option Location :=
  m.frames.top?.bind Frame.lastPlace

def stop (m : Machine) : Machine :=
  { m with
    store := { m.store with scopes := m.store.scopes.unwind }
    frames := .empty
    request := none
    interrupted := false }

/-- Ends the run with a fault for the next execution to report. A request that cannot be met is
answered in this way. -/
def fail (m : Machine) (fault : Fault) : Machine :=
  { m.stop with fault := some (fault.locate m.lastPlace) }

def open? (m : Machine) (frame : Frame) : Except Fault Machine :=
  match Stack.pushLimited "CALL STACK OVERFLOW" frame m.frames with
  | .ok () frames => .ok { m with frames }
  | .error fault _ => .error fault

def reset (m : Machine) : Machine :=
  { m with
    store := { m.store with values := .empty, scopes := m.store.scopes.clear, functions := ∅ }
    frames := .empty
    request := none
    fault := none
    interrupted := false }

def load (m : Machine) (program : Program) : Machine :=
  { m.reset with frames := .ofList [.start .entry program program.span 0] }

/-- Runs the top level of `program` as statements on the values, global variables and functions that
are there. -/
def direct (m : Machine) (program : Program) : Machine :=
  { m.stop with
    frames := .ofList [.start .block program program.span 0]
    fault := none }

def enter (m : Machine) (line : String) : Machine :=
  match m.request with
  | some .line =>
    { m with
      store := { m.store with values := m.store.values.push (.string line) }
      request := none }
  | _ => m

/-- Answers the request for a program: its top level runs in the scope of the asking block. -/
def attach (m : Machine) (program : Program) : Machine :=
  match m.request with
  | some (.program _) =>
    let m := { m with request := none }
    let scope := (m.frames.top?.map Frame.scope).getD 0
    match m.open? (.start .attached program program.span scope) with
    | .ok m => m
    | .error fault => m.fail fault
  | _ => m

def interrupt (m : Machine) : Machine :=
  { m with interrupted := m.interrupted || m.isRunning }

end Machine
end StackScript
