import StackScript.Proofs.Slices

/-!
What lasts: statements about whole machines, with all that waits in them, that no call can break.
`Kept` is the same for the scopes, functions and frames alone.
-/
namespace StackScript
namespace Machine

/-- It is enough to look at what calls do at once, and at single steps of a machine that is ready. -/
structure Lasting (holds : Machine → Prop) : Prop where
  initial : holds {}
  loads {m : Machine} (program : Program) (before : holds m) : holds (m.load program)
  directs {m : Machine} (program : Program) (before : holds m) : holds (m.direct program)
  interrupts {m : Machine} (before : holds m) : holds m.interrupt
  fails {m : Machine} (fault : Fault) (before : holds m) : holds (m.fail fault)
  enters {m : Machine} (line : String) (asked : m.request = some .line) (before : holds m) :
      holds (m.enter line)
  attaches {m : Machine} {path : String} {frames : List Frame} (program : Program)
      (asked : m.request = some (.program path)) (same : m.frames = .ofList frames)
      (room : frames.length < Stack.capacity) (before : holds m) :
      holds
        { m with
          request := none
          frames := .ofList (.start .attached program program.span
            ((frames.head?.map Frame.scope).getD 0) :: frames) }
  reports {m : Machine} {fault : Fault} (stored : m.fault = some fault) (before : holds m) :
      holds { m with fault := none }
  stops {m : Machine} (noFault : m.fault = none) (before : holds m) : holds m.stop
  moves {m after : Machine} {frame : Frame} {below : List Frame} {event : Option Event}
      (reached : m.Reachable) (ready : m.Ready) (frames : m.frames = .ofList (frame :: below))
      (moved : m.Moves frame below after event) (before : holds m) : holds after

namespace Lasting

variable {holds : Machine → Prop} {m : Machine}

theorem step (lasting : Lasting holds) (reached : m.Reachable) (ready : m.Ready)
    (before : holds m) : holds m.step.1 := by
  cases top : m.frames.top? with
  | none => simpa only [Machine.step, top] using before
  | some frame =>
    obtain ⟨below, frames⟩ := Stack.top_eq_some top
    exact lasting.moves reached ready frames (step_moves frames) before

theorem run (lasting : Lasting holds) (cycles : Nat) (reached : m.Reachable) (ready : m.Ready)
    (before : holds m) : holds (m.run cycles).1 := by
  induction cycles generalizing m with
  | zero => exact before
  | succ cycles ih =>
    have next := lasting.step reached ready before
    have quiet := (step_quiet ready).2
    rcases stepped : m.step with ⟨after, _ | event⟩
    · rw [stepped] at next quiet
      rw [run_quiet stepped]
      have later : after.Reachable := by
        have executed := reached.call (.execute 1)
        rwa [Machine.after, execute_one ready stepped] at executed
      exact ih later (quiet rfl) next
    · rw [stepped] at next
      rw [run_loud stepped]
      exact next

theorem execute (lasting : Lasting holds) (cycles : Nat) (reached : m.Reachable)
    (before : holds m) : holds (m.execute cycles).1 := by
  by_cases ready : m.Ready
  · rw [execute_ready ready]
    exact lasting.run cycles reached ready before
  · rw [(execute_waiting ready cycles).1]
    unfold Machine.execute
    cases stored : m.fault with
    | some fault => exact lasting.reports stored before
    | none =>
      cases m.request with
      | some request => exact before
      | none =>
        dsimp only
        split
        · exact lasting.stops stored before
        · split <;> exact before

theorem attach (lasting : Lasting holds) (program : Program) (before : holds m) :
    holds (m.attach program) := by
  rcases m.attach_cases program with same | ⟨path, asked, full | ⟨room, opened⟩⟩
  · rwa [same]
  · rw [full]
    have failed : holds (m.fail overflow) := lasting.fails overflow before
    exact failed
  · rw [opened]
    exact lasting.attaches program asked (Stack.eq_of_items rfl) room before

theorem enter (lasting : Lasting holds) (line : String) (before : holds m) :
    holds (m.enter line) := by
  rcases m.enter_cases line with same | ⟨asked, -⟩
  · rwa [same]
  · exact lasting.enters line asked before

theorem reachable (lasting : Lasting holds) (reached : m.Reachable) : holds m := by
  induction reached with
  | initial => exact lasting.initial
  | call call reached ih =>
    cases call with
    | load program => exact lasting.loads program ih
    | direct program => exact lasting.directs program ih
    | execute cycles => exact lasting.execute cycles reached ih
    | interrupt => exact lasting.interrupts ih
    | fail fault => exact lasting.fails fault ih
    | enter line => exact lasting.enter line ih
    | attach program => exact lasting.attach program ih

end Lasting
end Machine
end StackScript
