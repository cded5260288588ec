import StackScript.Proofs.Slices

/-!
A host at work on a world: one turn is a poll of the console, a slice of the machine, and service of
what the slice came to. What single calls keep, a hosted run keeps.
-/
namespace StackScript
namespace Host

variable {σ : Type} {console : Console (StateM σ)} {source : Source (StateM σ)}

def polled (m : Machine) (alarm : Bool) : Machine :=
  if alarm then m.interrupt else m

def serve (console : Console (StateM σ)) (source : Source (StateM σ)) (m : Machine) :
    Event → StateM σ (Machine × Option (Except Fault Unit))
  | .stopped => pure (m, some (.ok ()))
  | .running => pure (m, none)
  | .print text => do
    match ← console.write text with
    | .ok () => return (m, none)
    | .error fault => return (m, some (.error fault))
  | .ask request => do return (← answer console source m request, none)
  | .failed fault => pure (m, some (.error fault))

theorem turn_eq (cycles : Nat) (m : Machine) (world : σ) :
    turn console source cycles m world =
      let (alarm, world) := console.interrupted world
      let (m, event) := (polled m alarm).execute cycles
      serve console source m event world := by
  unfold turn polled
  simp only [bind, StateT.bind]
  rcases console.interrupted world with ⟨alarm, world⟩
  cases alarm with
  | false =>
    simp only [Bool.false_eq_true, ↓reduceIte]
    rcases m.execute cycles with ⟨m, event⟩
    cases event <;> rfl
  | true =>
    simp only [↓reduceIte]
    rcases m.interrupt.execute cycles with ⟨m, event⟩
    cases event <;> rfl

theorem serve_print (m : Machine) (text : String) (world : σ) :
    serve console source m (.print text) world =
      match console.write text world with
      | (.ok (), world) => ((m, none), world)
      | (.error fault, world) => ((m, some (.error fault)), world) := by
  simp only [serve, bind, StateT.bind]
  rcases console.write text world with ⟨fault | ⟨⟩, world⟩ <;> rfl

theorem serve_line (m : Machine) (world : σ) :
    serve console source m (.ask .line) world =
      match console.readLine prompt world with
      | (.ok line, world) => ((m.enter line, none), world)
      | (.error fault, world) => ((m.fail fault, none), world) := by
  simp only [serve, answer, bind, StateT.bind]
  rcases console.readLine prompt world with ⟨fault | line, world⟩ <;> rfl

theorem serve_program (m : Machine) (path : String) (world : σ) :
    serve console source m (.ask (.program path)) world =
      match source path world with
      | (.ok lines, world) => ((m.attach (.ofLines path lines), none), world)
      | (.error fault, world) => ((m.fail fault, none), world) := by
  simp only [serve, answer, read, bind, StateT.bind]
  rcases source path world with ⟨fault | lines, world⟩ <;> rfl

theorem run_from {cycles turns : Nat} {m after : Machine} {world between : σ}
    (unfinished : run console source cycles turns m world = ((after, none), between)) (more : Nat) :
    run console source cycles (turns + more) m world =
      run console source cycles more after between := by
  induction turns generalizing m world with
  | zero =>
    cases unfinished
    rw [Nat.zero_add]
  | succ turns ih =>
    rw [run_succ] at unfinished
    rw [Nat.succ_add, run_succ]
    rcases turned : turn console source cycles m world with ⟨⟨next, _ | result⟩, between⟩
    · rw [turned] at unfinished
      exact ih unfinished
    · rw [turned] at unfinished
      cases unfinished

/-- What a machine keeps when it is interrupted, when it runs and when it gets an answer, it keeps in
the hands of a host. -/
structure Kept (holds : Machine → Prop) : Prop where
  interrupts {m : Machine} (before : holds m) : holds m.interrupt
  executes {m : Machine} (cycles : Nat) (before : holds m) : holds (m.execute cycles).1
  enters {m : Machine} (line : String) (before : holds m) : holds (m.enter line)
  attaches {m : Machine} (program : Program) (before : holds m) : holds (m.attach program)
  fails {m : Machine} (fault : Fault) (before : holds m) : holds (m.fail fault)

namespace Kept

variable {holds : Machine → Prop} {m : Machine}

theorem serve (kept : Kept holds) (before : holds m) (event : Event) (world : σ) :
    holds (Host.serve console source m event world).1.1 := by
  cases event with
  | stopped | running | failed => exact before
  | print text =>
    rw [serve_print]
    rcases console.write text world with ⟨fault | ⟨⟩, world⟩ <;> exact before
  | ask request =>
    cases request with
    | line =>
      rw [serve_line]
      rcases console.readLine prompt world with ⟨fault | line, world⟩
      · exact kept.fails fault before
      · exact kept.enters line before
    | program path =>
      rw [serve_program]
      rcases source path world with ⟨fault | lines, world⟩
      · exact kept.fails fault before
      · exact kept.attaches _ before

theorem turn (kept : Kept holds) (before : holds m) (cycles : Nat) (world : σ) :
    holds (Host.turn console source cycles m world).1.1 := by
  rw [turn_eq]
  rcases console.interrupted world with ⟨alarm, world⟩
  have ready : holds (polled m alarm) := by
    cases alarm with
    | false => exact before
    | true => exact kept.interrupts before
  exact kept.serve (kept.executes cycles ready) _ world

theorem run (kept : Kept holds) (before : holds m) (cycles turns : Nat) (world : σ) :
    holds (Host.run console source cycles turns m world).1.1 := by
  induction turns generalizing m world with
  | zero => exact before
  | succ turns ih =>
    have next : holds (Host.turn console source cycles m world).1.1 := kept.turn before cycles world
    rw [run_succ]
    rcases turned : Host.turn console source cycles m world with ⟨⟨after, _ | result⟩, world⟩
    · rw [turned] at next
      exact ih next world
    · rw [turned] at next
      exact next

end Kept

theorem kept_reachable : Kept Machine.Reachable where
  interrupts before := before.call .interrupt
  executes cycles before := before.call (.execute cycles)
  enters line before := before.call (.enter line)
  attaches program before := before.call (.attach program)
  fails fault before := before.call (.fail fault)

end Host
end StackScript
