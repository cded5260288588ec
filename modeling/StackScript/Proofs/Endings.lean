import Mathlib.Control.Monad.Basic
import StackScript.Proofs.Hosting
import StackScript.Proofs.Addresses

/-!
How hosted runs end. However a host comes to a result, by the end of the program, a fault, an interrupt
or a request that it could not meet, nothing of the run is left in the machine. Text that cannot be
written is the exception: the host gives up at once and leaves the run as it stands.
-/
namespace StackScript
namespace Machine

variable {m after : Machine}

theorem moves_printed {frame : Frame} {below : List Frame} {text : String}
    (moved : m.Moves frame below after (some (.print text))) (ready : m.Ready) : after.Ready := by
  generalize reported : some (Event.print text) = event at moved
  cases moved with
  | works op store inside here due control =>
    cases control with
    | print shown => exact ⟨ready.noFault, ready.noRequest, rfl, ready.undisturbed⟩
    | proceed | jump | ask | enter => cases reported
  | closes => split at reported <;> cases reported
  | _ => cases reported

theorem execute_printed {cycles : Nat} {text : String}
    (printed : (m.execute cycles).2 = .print text) : (m.execute cycles).1.Ready := by
  by_cases ready : m.Ready
  · rw [execute_ready ready] at printed ⊢
    rcases run_ends (fun before => (step_quiet before).2) ready cycles with
      running | ⟨last, before, stepped⟩
    · cases printed.symm.trans running
    · obtain ⟨frame, below, frames⟩ := frames_of_running before.running
      have moved := step_moves frames
      rw [stepped, printed] at moved
      exact moves_printed moved before
  · rw [(execute_waiting ready cycles).1] at printed
    unfold execute at printed
    split at printed
    · cases printed
    · cases printed
    · split at printed
      · cases printed
      · split at printed <;> cases printed

theorem execute_over (reached : m.Reachable) {cycles : Nat}
    (stopped : (m.execute cycles).2 = .stopped) : (m.execute cycles).1.Idle :=
  ⟨ended_over (reached.call (.execute cycles)) (execute_stopped stopped), m.execute_spends cycles⟩

theorem ended_depth (reached : m.Reachable) (ended : m.isRunning = false) :
    m.store.scopes.depth = 1 := by
  have depth := (kept_inStep.reachable reached).depth
  rwa [(not_running_iff m).mp ended] at depth

end Machine

namespace Host

variable {σ : Type} {console : Console (StateM σ)} {source : Source (StateM σ)}
  {cycles turns : Nat} {m after : Machine} {result : Except Fault Unit} {world ending : σ}

/-- The result is that text of the machine `after` could not be written; nothing was done since. -/
def Unwritten (console : Console (StateM σ)) (cycles : Nat) (after : Machine)
    (result : Except Fault Unit) (ending : σ) : Prop :=
  ∃ (before : Machine) (text : String) (world : σ) (fault : Fault),
    before.execute cycles = (after, .print text) ∧
      console.write text world = (.error fault, ending) ∧ result = .error fault

/-- Service gives a result in three cases, and leaves the machine as the slice left it. -/
theorem serve_result {event : Event}
    (served : serve console source m event world = ((after, some result), ending)) :
    after = m ∧ (event = .stopped ∨ (∃ fault, event = .failed fault) ∨
      ∃ text fault, event = .print text ∧ console.write text world = (.error fault, ending) ∧
        result = .error fault) := by
  cases event with
  | stopped =>
    cases served
    exact ⟨rfl, .inl rfl⟩
  | failed fault =>
    cases served
    exact ⟨rfl, .inr (.inl ⟨fault, rfl⟩)⟩
  | running => cases served
  | print text =>
    rw [serve_print] at served
    rcases written : console.write text world with ⟨fault | ⟨⟩, world⟩
    · rw [written] at served
      cases served
      exact ⟨rfl, .inr (.inr ⟨text, fault, rfl, written, rfl⟩)⟩
    · rw [written] at served
      cases served
  | ask request =>
    cases request with
    | line =>
      rw [serve_line] at served
      rcases read : console.readLine prompt world with ⟨fault | line, world⟩ <;>
        rw [read] at served <;> cases served
    | program path =>
      rw [serve_program] at served
      rcases fetched : source path world with ⟨fault | lines, world⟩ <;>
        rw [fetched] at served <;> cases served

theorem turn_result (reached : m.Reachable)
    (turned : turn console source cycles m world = ((after, some result), ending)) :
    after.Idle ∨ Unwritten console cycles after result ending := by
  rw [turn_eq] at turned
  rcases poll : console.interrupted world with ⟨alarm, between⟩
  rw [poll] at turned
  have polled : (polled m alarm).Reachable := by
    cases alarm with
    | false => exact reached
    | true => exact reached.call .interrupt
  dsimp only at turned
  generalize Host.polled m alarm = t at polled turned
  obtain ⟨same, stopped | ⟨fault, failed⟩ | ⟨text, fault, printed, written, gave⟩⟩ :=
    serve_result turned
  · rw [same]
    exact .inl (Machine.execute_over polled stopped)
  · rw [same]
    exact .inl (Machine.execute_failed polled failed)
  · exact .inr ⟨t, text, between, fault, Prod.ext same.symm printed, written, gave⟩

theorem run_result (reached : m.Reachable)
    (finished : run console source cycles turns m world = ((after, some result), ending)) :
    after.Reachable ∧ (after.Idle ∨ Unwritten console cycles after result ending) := by
  induction turns generalizing m world with
  | zero => cases finished
  | succ turns ih =>
    have next : (turn console source cycles m world).1.1.Reachable :=
      kept_reachable.turn reached cycles world
    rw [run_succ] at finished
    rcases turned : turn console source cycles m world with ⟨⟨between, _ | early⟩, later⟩
    · rw [turned] at finished next
      exact ih next finished
    · rw [turned] at finished next
      cases finished
      exact ⟨next, turn_result reached turned⟩

/-- When a hosted run has come to a result, the machine is stopped: nothing waits in it, the global
scope is alone, and executing it does nothing. The only other case is that text could not be written;
then the run stands right behind the operation that printed, and goes on when it is executed. -/
theorem results_leave_no_run (reached : m.Reachable)
    (finished : run console source cycles turns m world = ((after, some result), ending)) :
    (after.isRunning = false ∧ after.request = none ∧ after.interrupted = false ∧
        after.store.scopes.depth = 1 ∧ ∀ cycles, after.execute cycles = (after, .stopped)) ∨
      (Unwritten console cycles after result ending ∧ after.isRunning = true ∧
        ∀ cycles, after.execute cycles = after.run cycles) := by
  obtain ⟨there, idle | ⟨before, text, between, fault, executed, failed⟩⟩ :=
    run_result reached finished
  · exact .inl ⟨idle.ended, idle.noRequest, idle.calm, Machine.ended_depth there idle.ended,
      idle.execute⟩
  · have ready : (before.execute cycles).1.Ready := Machine.execute_printed (by rw [executed])
    rw [executed] at ready
    exact .inr ⟨⟨before, text, between, fault, executed, failed⟩, ready.running,
      Machine.execute_ready ready⟩

/-- A loop in `main` whose input is at its end. -/
theorem results_leave_no_run_unread :
    let m := ({} : Machine).load (.ofText "t" "func main 1 while input end end")
    let console : Console (StateM Unit) :=
      { write := fun _ => pure (.ok ())
        readLine := fun _ => pure (.error { kind := .inputPastEnd })
        interrupted := pure false }
    let source : Source (StateM Unit) := fun _ => pure (.ok [])
    let fault : Fault := { kind := .inputPastEnd, place := some ⟨"t", 1, ⟨18, 23⟩⟩ }
    let done := run console source slice 2 m ()
    m.Reachable ∧ done = ((done.1.1, some (.error fault)), ()) ∧ done.1.1.isRunning = false ∧
      ∀ cycles, done.1.1.execute cycles = (done.1.1, .stopped) := by
  intro m console source fault done
  have reached : m.Reachable := Machine.Reachable.initial.call (.load _)
  have result : done.1.2 = some (.error fault) := by decide +kernel
  have finished : done = ((done.1.1, some (.error fault)), ()) := Prod.ext (Prod.ext rfl result) rfl
  rcases results_leave_no_run reached finished with
    ⟨ended, -, -, -, still⟩ | ⟨⟨before, text, world, fault, -, failed, -⟩, -⟩
  · exact ⟨reached, finished, ended, still⟩
  · cases failed

/-- A console that is closed: the result is there, and the machine still has the rest of `main` to
run. Executed once more, it gives the next text to print. -/
theorem closed_console_leaves_run :
    let m := ({} : Machine).load (.ofText "t" "func main 'a' write 'b' write end")
    let closed : Fault := { kind := .diskFailure, detail := "console closed" }
    let console : Console (StateM Unit) :=
      { write := fun _ => pure (.error closed)
        readLine := fun _ => pure (.ok "")
        interrupted := pure false }
    let source : Source (StateM Unit) := fun _ => pure (.ok [])
    let done := run console source slice 1 m ()
    m.Reachable ∧ done = ((done.1.1, some (.error closed)), ()) ∧ done.1.1.isRunning = true ∧
      (done.1.1.execute slice).2 = .print "b" := by
  intro m closed console source done
  have result : done.1.2 = some (.error closed) := by decide +kernel
  exact ⟨Machine.Reachable.initial.call (.load _), Prod.ext (Prod.ext rfl result) rfl,
    by decide +kernel, by decide +kernel⟩

end Host
end StackScript
