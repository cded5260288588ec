import StackScript.Proofs.Enclosed
import StackScript.Proofs.Lasting

/-!
What a machine waits for between two executions: a fault waits to be reported only when nothing is
left to run, and a request waits for an answer only at a frame that has carried out an operation.
-/
namespace StackScript
namespace Machine

structure Waits (m : Machine) : Prop where
  idle : m.fault ≠ none → m.frames = .ofList []
  begun : m.request ≠ none →
    ∃ frame below, m.frames = .ofList (frame :: below) ∧ frame.span.start < frame.next

variable {m : Machine}

theorem Waits.nothing (noFault : m.fault = none) (noRequest : m.request = none) : m.Waits :=
  ⟨fun fault => absurd noFault fault, fun request => absurd noRequest request⟩

theorem Waits.stop (noFault : m.fault = none) : m.stop.Waits :=
  .nothing noFault rfl

theorem Waits.fail (m : Machine) (fault : Fault) : (m.fail fault).Waits :=
  ⟨fun _ => rfl, fun request => absurd rfl request⟩

theorem moves_waits {after : Machine} {frame : Frame} {below : List Frame} {event : Option Event}
    (moved : m.Moves frame below after event) (ready : m.Ready)
    (begun : frame.span.start ≤ frame.next) : after.Waits := by
  obtain ⟨noFault, noRequest, -, -⟩ := ready
  cases moved with
  | passes | enters | repeats | closes | starts => exact .nothing noFault noRequest
  | misses | fails | overflows | doubts | chokes => exact .stop noFault
  | works op store inside here due control within performed =>
    refine ⟨fun fault => absurd noFault fault, fun asked => ?_⟩
    cases control with
    | ask request => exact ⟨_, below, rfl, Nat.lt_succ_of_le begun⟩
    | _ => exact absurd noRequest asked

theorem lasting_waits : Lasting Waits where
  initial := .nothing rfl rfl
  loads _ _ := .nothing rfl rfl
  directs _ _ := .nothing rfl rfl
  interrupts waits := ⟨waits.idle, waits.begun⟩
  fails fault _ := .fail _ fault
  enters line asked waits := by
    simp only [enter, asked]
    exact ⟨waits.idle, fun request => absurd rfl request⟩
  attaches program asked same _ waits := by
    refine .nothing (Classical.byContradiction fun fault => ?_) rfl
    obtain ⟨frame, below, frames, -⟩ := waits.begun (by simp [asked])
    have idle := waits.idle fault
    rw [frames] at idle
    cases idle
  reports _ waits := ⟨fun other => absurd rfl other, waits.begun⟩
  stops noFault _ := .stop noFault
  moves reached ready frames moved _ := by
    have enclosed := kept_enclosed.reachable reached
    rw [Kept.On, frames] at enclosed
    exact moves_waits moved ready enclosed.top.begun

theorem reachable_waits (reached : m.Reachable) : m.Waits :=
  lasting_waits.reachable reached

end Machine
end StackScript
