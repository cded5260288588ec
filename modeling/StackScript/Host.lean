import StackScript.Machine.Execute

/-!
The host of a run: it lets the machine run in slices, and serves what it prints and asks for from a
console and from a source of programs. Both act in any monad `M`, so that a host runs on real files
and on described ones alike.
-/
namespace StackScript

structure Console (M : Type → Type) where
  write : String → M (Except Fault Unit)
  /-- Shows a prompt and takes one line, without its ending. -/
  readLine : String → M (Except Fault String)
  /-- Whether the run is to be interrupted; asked once before each slice. -/
  interrupted : M Bool

abbrev Source (M : Type → Type) := String → M (Except Fault (List String))

namespace Host

def slice : Nat := 5000

def prompt : String := "\n? "

variable {M : Type → Type} [Monad M]

def read (source : Source M) (path : String) : M (Except Fault Program) := do
  let lines ← source path
  return lines.map (Program.ofLines path)

@[specialize] def answer (console : Console M) (source : Source M) (m : Machine) : Request → M Machine
  | .line => do
    match ← console.readLine prompt with
    | .ok line => return m.enter line
    | .error fault => return m.fail fault
  | .program path => do
    match ← read source path with
    | .ok program => return m.attach program
    | .error fault => return m.fail fault

@[specialize] def turn (console : Console M) (source : Source M) (cycles : Nat) (m : Machine) :
    M (Machine × Option (Except Fault Unit)) := do
  let m := if ← console.interrupted then m.interrupt else m
  match m.execute cycles with
  | (m, .stopped) => return (m, some (.ok ()))
  | (m, .running) => return (m, none)
  | (m, .print text) =>
    match ← console.write text with
    | .ok () => return (m, none)
    | .error fault => return (m, some (.error fault))
  | (m, .ask request) => return (← answer console source m request, none)
  | (m, .failed fault) => return (m, some (.error fault))

@[specialize] def run (console : Console M) (source : Source M) (cycles : Nat) :
    Nat → Machine → M (Machine × Option (Except Fault Unit))
  | 0, m => return (m, none)
  | turns + 1, m => do
    match ← turn console source cycles m with
    | (m, none) => run console source cycles turns m
    | (m, some result) => return (m, some result)

def load (source : Source M) (path : String) : M (Except Fault Machine) := do
  return (← read source path).map fun program => Machine.load {} program

end Host
end StackScript
