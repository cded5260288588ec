import StackScript.Proofs.Reach

/-!
A machine that is driven in slices and gets answers from a list. The log holds what its driver sees:
every event but `running`, with the machine as it was right after it.
-/
namespace StackScript

inductive Answer where
  | line (text : String)
  | program (program : Program)
  /-- The request cannot be met. -/
  | fault (fault : Fault)

/-- An answer of another kind than the request is none. -/
def Machine.receive? (m : Machine) (answer : Answer) : Option Machine :=
  match m.request, answer with
  | some .line, .line text => some (m.enter text)
  | some (.program _), .program program => some (m.attach program)
  | some _, .fault fault => some (m.fail fault)
  | _, _ => none

structure Session where
  machine : Machine
  answers : List Answer
  log : List (Event × Machine) := []

namespace Session

def record (s : Session) (event : Event) (m : Machine) : Session :=
  { s with machine := m, log := s.log ++ [(event, m)] }

def reply (s : Session) : Session :=
  match s.answers with
  | [] => s
  | answer :: answers =>
    match s.machine.receive? answer with
    | some machine => { s with machine, answers }
    | none => s

def turn (cycles : Nat) (s : Session) : Session :=
  match s.machine.execute cycles with
  | (m, .running) => { s with machine := m }
  | (m, .ask request) => (s.record (.ask request) m).reply
  | (m, event) => s.record event m

def cycles : Nat → Session → Session
  | 0, s => s
  | n + 1, s => cycles n (s.turn 1)

/-- Slices with the cycles that `budgets` grants in turn. -/
def drive (budgets : Nat → Nat) : Nat → Session → Session
  | 0, s => s
  | n + 1, s => (drive budgets n s).turn (budgets n)

theorem cycles_add (first second : Nat) (s : Session) :
    s.cycles (first + second) = (s.cycles first).cycles second := by
  induction first generalizing s with
  | zero => rw [Nat.zero_add, cycles]
  | succ first ih =>
    rw [Nat.succ_add, cycles, cycles]
    exact ih (s.turn 1)

theorem log_reply (s : Session) : s.reply.log = s.log := by
  unfold reply
  split
  · rfl
  · split <;> rfl

theorem log_turn (n : Nat) (s : Session) : s.log <+: (s.turn n).log := by
  unfold turn
  split
  · exact List.prefix_refl _
  · rw [log_reply]
    exact List.prefix_append ..
  · exact List.prefix_append ..

theorem log_cycles (n : Nat) (s : Session) : s.log <+: (s.cycles n).log := by
  induction n generalizing s with
  | zero => exact List.prefix_refl _
  | succ n ih => exact (log_turn 1 s).trans (ih (s.turn 1))

theorem reply_keeps {holds : Machine → Prop}
    (receives : ∀ {m after : Machine} {answer : Answer}, holds m →
      m.receive? answer = some after → holds after)
    {s : Session} (before : holds s.machine) : holds s.reply.machine := by
  unfold reply
  cases s.answers with
  | nil => exact before
  | cons answer answers =>
    dsimp only
    cases received : s.machine.receive? answer with
    | none => exact before
    | some after => exact receives before received

theorem turn_keeps {holds : Machine → Prop} (cycles : Nat)
    (executes : ∀ {m : Machine}, holds m → holds (m.execute cycles).1)
    (receives : ∀ {m after : Machine} {answer : Answer}, holds m →
      m.receive? answer = some after → holds after)
    {s : Session} (before : holds s.machine) : holds (s.turn cycles).machine := by
  have executed := executes before
  unfold turn
  generalize s.machine.execute cycles = result at executed
  obtain ⟨m, event⟩ := result
  cases event with
  | ask request => exact reply_keeps receives executed
  | _ => exact executed

end Session

theorem Machine.Reachable.receive {m after : Machine} {answer : Answer} (reached : m.Reachable)
    (received : m.receive? answer = some after) : after.Reachable := by
  unfold receive? at received
  split at received
  · cases received
    exact reached.call (.enter _)
  · cases received
    exact reached.call (.attach _)
  · cases received
    exact reached.call (.fail _)
  · cases received

namespace Session

variable {s : Session}

theorem reachable_turn (reached : s.machine.Reachable) (cycles : Nat) :
    (s.turn cycles).machine.Reachable :=
  turn_keeps cycles (fun before => before.call (.execute cycles)) Machine.Reachable.receive reached

theorem reachable_cycles (reached : s.machine.Reachable) (n : Nat) :
    (s.cycles n).machine.Reachable := by
  induction n generalizing s with
  | zero => exact reached
  | succ n ih => exact ih (reachable_turn reached 1)

end Session
end StackScript
