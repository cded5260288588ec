import StackScript.Proofs.Following
import StackScript.Proofs.Waiting

/-!
The machine, which saves where each open block goes on, agrees with the recursive meaning of blocks.
The induction is on the fuel of the recursion: `Agrees fuel` is what its step starts from, and the
lemmas about frames take apart one level of the recursion against the cycles that belong to it.
-/
namespace StackScript

def World.closed (w : World) (frame : Frame) : World :=
  { w with
    store := { w.store with
      scopes := if frame.kind.ownsScope then w.store.scopes.leave frame.scope
        else w.store.scopes } }

namespace Session

variable {s : Session} {frame : Frame} {below : List Frame} {w : World} {least : Nat}
  {ends : World → Session → Prop}

theorem ready_at (frame : Frame) (below : List Frame) (w : World) :
    (w.machine (frame :: below)).Ready :=
  ⟨rfl, rfl, rfl, rfl⟩

theorem step_at (frame : Frame) (below : List Frame) (w : World) :
    ∃ after event, (w.machine (frame :: below)).step = (after, event) ∧
      (w.machine (frame :: below)).Moves frame below after event :=
  ⟨_, _, rfl, Machine.step_moves rfl⟩

theorem busy_at (here : s.At (frame :: below) w) : s.Busy below.length := by
  rw [Busy, here.machine]
  exact ⟨rfl, .inl (Nat.lt_succ_self _)⟩

theorem record_is {answers : List Answer} {shown : List Event} {m : Machine} (event : Event)
    (is : s.Is m answers shown) (after : Machine) :
    (s.record event after).Is after answers (shown ++ [event]) := by
  refine ⟨rfl, is.answers, ?_⟩
  rw [← is.shown]
  exact List.map_append

theorem turn_quiet {after : Machine} (here : s.At (frame :: below) w)
    (stepped : (w.machine (frame :: below)).step = (after, none)) :
    (s.turn 1).Is after w.answers w.shown := by
  unfold turn
  rw [here.machine, Machine.execute_one (ready_at frame below w) stepped]
  exact ⟨rfl, here.answers, here.shown⟩

theorem turn_event {after : Machine} {event : Event} (here : s.At (frame :: below) w)
    (stepped : (w.machine (frame :: below)).step = (after, some event))
    (silent : ∀ request, event ≠ .ask request) :
    (s.turn 1).Is after w.answers (w.shown ++ [event]) := by
  have loud := (Machine.step_quiet (ready_at frame below w)).1
  rw [stepped] at loud
  unfold turn
  rw [here.machine, Machine.execute_one (ready_at frame below w) stepped]
  cases event with
  | running => exact absurd rfl loud
  | ask request => exact absurd rfl (silent request)
  | _ => exact record_is _ here after

theorem Follows.fails {fault : Fault} (there : s.Ends below (.failed fault w)) :
    s.Follows below least ends (.failed fault w) :=
  ⟨0, nofun, there⟩

theorem Follows.reports {fault : Fault}
    (is : s.Is { w.machine [] with fault := some fault } w.answers w.shown) :
    s.Follows below least ends (.failed fault w) := by
  have busy : s.Busy below.length := by
    rw [Busy, is.machine]
    exact ⟨rfl, .inr nofun⟩
  refine Follows.weaken (Nat.le_add_right least 2) (Follows.turn busy (Follows.fails ?_))
  have turned : s.turn 1 = s.record (.failed fault) (w.machine []) := by
    unfold Session.turn
    rw [is.machine]
    rfl
  rw [turned]
  exact record_is _ is _

theorem Follows.waits {caller : Frame} {request : Request}
    (is : s.Is { w.machine (caller :: below) with request := some request } w.answers w.shown) :
    s.Follows below least ends (.waiting request w) :=
  ⟨0, nofun, [caller], List.cons_ne_nil _ _, is⟩

section Asking

variable {caller : Frame} {here : Setting} {address : Nat}

end Asking

theorem close_follows (here : s.At (frame :: below) w) (outside : frame.span.stop ≤ frame.next)
    (spent : frame.kind = .loop → w.store.wantsLoop = .ok false)
    (alone : frame.kind = .entry → w.store.functions["main"]? = none) :
    s.Follows below least (fun v t => t.Ends below (.done v))
      (.done (w.closed frame)) := by
  obtain ⟨after, event, stepped, moved⟩ := step_at frame below w
  refine Follows.weaken (Nat.le_add_right least 2) (Follows.turn (busy_at here) (.done ?_))
  cases moved with
  | passes op inside | misses inside | fails op fault store inside | works op store inside
  | enters op resume inner store inside | overflows op resume inner store inside => omega
  | repeats _ loop wanted => cases (spent loop).symm.trans wanted
  | doubts fault _ loop doubtful => cases (spent loop).symm.trans doubtful
  | starts body _ entry main => cases (alone entry).symm.trans main
  | chokes body _ entry main => cases (alone entry).symm.trans main
  | closes =>
    cases below with
    | nil =>
      have stopped := turn_event here stepped nofun
      exact stopped
    | cons caller below =>
      have quiet := turn_quiet here stepped
      rw [Ends, if_neg (List.cons_ne_nil caller below), List.append_nil]
      exact quiet

def Finishes (frame : Frame) (below : List Frame) (w : World) (s : Session) : Prop :=
  ∃ address, frame.span.stop ≤ address ∧ s.At (frame.resumeAt address :: below) w

theorem Finishes.follows (finishes : Finishes frame below w s)
    (spent : frame.kind = .loop → w.store.wantsLoop = .ok false)
    (alone : frame.kind = .entry → w.store.functions["main"]? = none) :
    s.Follows below least (fun v t => t.Ends below (.done v)) (.done (w.closed frame)) := by
  obtain ⟨address, outside, there⟩ := finishes
  have closes := @close_follows s (frame.resumeAt address) below w least there outside spent alone
  exact closes

/-- What the recursion has been shown to do up to some depth of recursion. -/
structure Agrees (fuel : Nat) : Prop where
  exec {s : Session} {frame : Frame} {below : List Frame} {w : World}
      (here : s.At (frame :: below) w) :
    s.Follows below fuel (Finishes frame below)
      ((frame.setting below.length).exec fuel frame.next w)
  loop {s : Session} {frame : Frame} {below : List Frame} {w : World}
      (here : s.At (frame :: below) w) (kind : frame.kind = .loop)
      (fresh : frame.next = frame.span.start) :
    s.Follows below (fuel - 1)
      (fun v t => v.store.wantsLoop = .ok false ∧ Finishes frame below v t)
      ((frame.setting below.length).execLoop fuel frame.span.start w)

section Frames

variable {fuel : Nat} (agrees : Agrees fuel)
include agrees

end Frames

end Session

namespace Machine

end Machine
end StackScript
