import StackScript.Proofs.Lockstep

/-!
Statements that are given to the machine piece by piece. When the first piece is done, the machine is
where one that was given all statements at once has come to, and from there on the two go on alike.
-/
namespace StackScript

theorem Op.names_jumps {op : Op} {site : Site} {store after : Store} {control : Control}
    (names : op.names) (performed : op.perform site store = .ok control after) :
    control.stays = false := by
  cases op with
  | define =>
    simp only [perform, performDefine] at performed
    cases named : site.operand? with
    | none =>
      rw [named] at performed
      cases performed
    | some operand =>
      rw [named] at performed
      cases operand with
      | functionName name =>
        dsimp only at performed
        rw [Change.bind_eq, Site.block, Change.require_eq] at performed
        cases found : Block.find site.program site.address site.limit false with
        | error fault =>
          rw [found] at performed
          cases performed
        | ok block =>
          rw [found] at performed
          cases performed
          rfl
      | _ => cases performed
  | declare =>
    simp only [perform, performDeclare] at performed
    cases named : site.operand? with
    | none =>
      rw [named] at performed
      cases performed
    | some operand =>
      rw [named] at performed
      cases operand with
      | variableName name =>
        cases performed
        rfl
      | _ => cases performed
  | _ => cases names

/-- The frame does not stand right behind `func` or `var`, unless it begins there. -/
def Frame.Settled (frame : Frame) : Prop :=
  frame.span.start < frame.next →
    ∀ op, frame.program.op? (frame.next - 1) = some op → op.names = false

def Settled (frames : List Frame) : Prop :=
  ∀ frame ∈ frames, frame.Settled

namespace Settled

variable {frame : Frame} {below : List Frame}

theorem push (settled : Settled below) (top : frame.Settled) : Settled (frame :: below) := by
  intro other member
  rcases List.mem_cons.mp member with rfl | older
  · exact top
  · exact settled other older

theorem drop (settled : Settled (frame :: below)) : Settled below :=
  fun other member => settled other (List.mem_cons_of_mem _ member)

theorem fresh (settled : Settled below) (fresh : frame.next = frame.span.start) :
    Settled (frame :: below) :=
  settled.push fun begun => absurd fresh (Nat.ne_of_gt begun)

theorem behind (settled : Settled (frame :: below)) {address : Nat} {op : Op}
    (here : frame.program.op? address = some op) (plain : op.names = false) :
    Settled (frame.resumeAt (address + 1) :: below) := by
  refine settled.drop.push fun _ other there => ?_
  cases here.symm.trans there
  exact plain

end Settled

namespace Machine

variable {m : Machine} {frame : Frame} {below : List Frame}

theorem moves_settled {after : Machine} {event : Option Event}
    (moved : m.Moves frame below after event) (settled : Settled (frame :: below)) :
    Settled after.frames.items := by
  have closed {opener limit : Nat} {branches : Bool} {block : Block} {op : Op}
      (here : frame.program.op? opener = some op) (opens : op.opensBlock)
      (found : Block.find frame.program opener limit branches = .ok block) :
      Settled (frame.resumeAt (block.close + 1) :: below) :=
    settled.behind (Block.find_encloses here opens found).returns.closes.1 rfl
  cases moved with
  | misses | fails | overflows | doubts | chokes => exact nofun
  | passes op inside here skipped =>
    refine settled.behind here ?_
    cases op with
    | define | declare => simp [Op.isTopLevel] at skipped
    | _ => rfl
  | works op store inside here due control within performed =>
    cases Op.effect_of_perform performed with
    | works control values stays asks =>
      cases named : op.names with
      | false =>
        have next := Control.resume_stays stays frame.next
        rw [next]
        exact settled.behind here named
      | true => cases stays.symm.trans (Op.names_jumps named performed)
    | takesBranch | beginsLoop | calls => exact absurd rfl (within _ _)
    | skipsBranch block values found => exact closed here rfl found
    | skipsLoop block found => exact closed here rfl found
    | assigns => exact settled.behind here rfl
    | defines name block operand found => exact closed here rfl found
    | declares name operand =>
      rw [Site.operand?] at operand
      split at operand
      · exact settled.behind operand rfl
      · cases operand
  | enters op resume inner store inside here due performed room =>
    have fresh := Op.enters_fresh performed
    refine Settled.fresh ?_ fresh
    cases Op.effect_of_perform performed with
    | works control values stays asks => cases stays
    | takesBranch block span values found => exact closed here rfl found
    | beginsLoop block found => exact closed here rfl found
    | calls => exact settled.behind here rfl
  | repeats => exact settled.drop.fresh rfl
  | closes => exact settled.drop
  | starts => exact settled.drop.fresh rfl

theorem lasting_settled : Lasting fun m => Settled m.frames.items where
  initial := nofun
  loads _ _ := Settled.fresh nofun rfl
  directs _ _ := Settled.fresh nofun rfl
  interrupts settled := settled
  fails _ _ := nofun
  enters line asked settled := by
    simp only [enter, asked]
    exact settled
  attaches program asked same room settled := by
    rw [same] at settled
    exact Settled.fresh settled rfl
  reports _ settled := settled
  stops _ _ := nofun
  moves _ _ frames moved settled := by
    rw [frames] at settled
    exact moves_settled moved settled

theorem stops_at_end (running : m.isRunning = true) (stops : (m.execute 1).2 = .stopped) :
    m.Ready ∧ ∃ frame, m.frames = .ofList [frame] ∧ frame.span.stop ≤ frame.next ∧
      (m.execute 1).1 = m.close frame := by
  by_cases ready : m.Ready
  · refine ⟨ready, ?_⟩
    obtain ⟨frame, below, frames⟩ := frames_of_running running
    have moved := step_moves frames
    rcases stepped : m.step with ⟨after, event⟩
    rw [execute_one ready stepped] at stops ⊢
    rw [stepped] at moved
    cases moved with
    | passes | enters | repeats | starts => cases stops
    | misses | fails | overflows | doubts | chokes => cases stops
    | works op store inside here due control => cases control <;> cases stops
    | closes outside spent alone =>
      cases below with
      | nil => exact ⟨frame, frames, outside, (close_eq frames).symm⟩
      | cons caller below => cases stops
  · rw [(execute_waiting ready 1).1] at stops
    unfold execute at stops
    split at stops
    · cases stops
    · cases stops
    · split at stops
      · cases stops
      · cases stops

end Machine

/-- Nothing in a program waits for a name when it is done. -/
theorem Frame.Settled.last {frame : Frame} (settled : frame.Settled)
    (whole : frame.span = frame.program.span) (stop : frame.next = frame.program.size) {op : Op}
    (last : (frame.program.ops frame.program.span).getLast? = some op) : op.names = false := by
  have length : (frame.program.ops frame.program.span).length = frame.program.size - 0 :=
    frame.program.length_ops (Nat.le_refl _)
  rw [List.getLast?_eq_getElem?, Program.getElem?_ops, length, ← stop] at last
  split at last
  · rename_i inside
    have begins : frame.span.start = 0 := by rw [whole, Program.span]
    have address : frame.program.span.start + (frame.next - 0 - 1) = frame.next - 1 :=
      Nat.zero_add (frame.next - 1)
    rw [address] at last
    refine settled ?_ op last
    have exist := (frame.program.op_isSome_iff (frame.next - 1)).mp (by rw [last]; rfl)
    omega
  · cases last

theorem InStep.lone {scopes : Scopes} {frame : Frame} (inStep : InStep scopes [frame])
    (shared : frame.kind.ownsScope = false) : frame.scope = 0 ∧ scopes.unwind = scopes := by
  have zero : owners [frame] = 0 := by simp [owners, shared]
  have depth := inStep.depth
  rw [zero, Scopes.depth] at depth
  have empty : scopes.inner = #[] := Array.eq_empty_of_size_eq_zero (by omega)
  constructor
  · exact (inStep.scope frame [] (List.suffix_refl _)).trans zero
  · rw [Scopes.unwind, ← empty]

namespace Machine.Abreast

variable {m n : Machine} {sequel : Sequel} {next : Program}

theorem directs (m : Machine)
    (longer : next.ops next.span = sequel.program.ops sequel.program.span ++ sequel.rest) :
    (m.direct sequel.program).Abreast (some sequel) (m.direct next) :=
  ⟨.refl _, .base ⟨rfl, rfl, longer, nofun⟩ rfl rfl rfl, rfl, rfl, rfl⟩

theorem follow_on (abreast : m.Abreast (some sequel) n) (reached : m.Reachable)
    (running : m.isRunning = true) (stops : (m.execute 1).2 = .stopped)
    (follows : (∀ op, (sequel.program.ops sequel.program.span).getLast? = some op →
      op.names = false) → next.ops next.span = sequel.rest) :
    ((m.execute 1).1.direct next).Abreast none n := by
  obtain ⟨ready, frame, frames, outside, closed⟩ := stops_at_end running stops
  have inStep : InStep m.store.scopes m.frames.items := kept_inStep.reachable reached
  have settled : Settled m.frames.items := lasting_settled.reachable reached
  have enclosed : Enclosed m.store.functions m.frames.items := kept_enclosed.reachable reached
  have both := abreast.frames
  rw [frames, Stack.items_ofList] at inStep settled enclosed both
  generalize stack : n.frames.items = others at both
  cases both with
  | inner matched lower => cases lower
  | @base _ _ other matched kind same span =>
    obtain ⟨scope, global⟩ := inStep.lone (by rw [kind]; rfl)
    have whole : frame.span = frame.program.span := by rw [span, same]
    have done : frame.next = frame.program.size := by
      have bounded := enclosed.top.bounded
      rw [whole] at bounded outside
      exact Nat.le_antisymm bounded outside
    -- the name that a `func` or `var` waits for would make the rest another one
    have ahead : other.ahead = next.ops next.span := by
      rw [matched.ahead, Frame.ahead, Program.ops_nil _ outside, List.nil_append]
      refine (follows ?_).symm
      intro op last
      rw [← same] at last
      exact (settled frame (List.mem_cons_self ..)).last whole done last
    have first : (Frame.start .block next next.span 0).Matches [] other := by
      refine ⟨kind.symm.trans matched.kind, scope.symm.trans matched.scope, ?_, by simp [Frame.start]⟩
      rw [List.append_nil]
      exact ahead
    rw [closed, close_eq frames, kind]
    refine ⟨⟨abreast.store.values, ?_, abreast.store.functions⟩, ?_, ?_, ?_, ?_⟩
    · exact global.trans abreast.store.scopes
    · rw [stack]
      exact .inner first .idle
    · exact ready.noRequest.symm.trans abreast.request
    · have fault := abreast.fault
      rw [ready.noFault] at fault
      exact fault
    · exact ready.undisturbed.symm.trans abreast.interrupted

end Machine.Abreast

/-- Statements in two pieces, the second run after the first has stopped, do what they do in one
program. The answers go on with those that the first piece has not taken. The two show the same events
but for the places of faults, ask for the same, and leave stores that are alike at every cycle. -/
theorem Machine.pieces_run_as_one {m : Machine} (reached : m.Reachable) (first second : List String)
    (source next whole : String) (answers : List Answer) (n : Nat)
    (fresh : (Program.ofLines next second).op? 0 ≠ some .assign) :
    let piece := Session.cycles n ⟨m.direct (.ofLines source first), answers, []⟩
    piece.machine.isRunning = true → (piece.machine.execute 1).2 = .stopped →
      ∀ k,
        let pieces := Session.cycles k
          ⟨(piece.machine.execute 1).1.direct (.ofLines next second), piece.answers, piece.log⟩
        let once := Session.cycles (n + k)
          ⟨m.direct (.ofLines whole (first ++ second)), answers, []⟩
        pieces.events.map Event.unplaced = once.events.map Event.unplaced ∧
          pieces.answers = once.answers ∧
          pieces.machine.request = once.machine.request ∧
          pieces.machine.isRunning = once.machine.isRunning ∧
          pieces.machine.store.Like once.machine.store := by
  intro piece running stops k pieces once
  let program := Program.ofLines source first
  let all := Program.ofLines whole (first ++ second)
  let sequel : Sequel := {
    program
    rest := Op.sequence (program.ops program.span).getLast? (words second)
    fresh := by
      intro assigns
      refine fresh ?_
      rw [Program.op_zero, Program.ofLines_ops]
      exact Op.sequence_assign assigns }
  have begun : Session.Abreast (some sequel) ⟨m.direct program, answers, []⟩
      ⟨m.direct all, answers, []⟩ :=
    ⟨.directs m (Program.ofLines_append whole source first second), rfl, rfl⟩
  have started : (m.direct program).Reachable := reached.call (.direct program)
  have alongside : (m.direct all).Reachable := reached.call (.direct all)
  have together := begun.cycles started alongside n (.inr running)
  have arrived : piece.machine.Reachable := Session.reachable_cycles started n
  have follows : ((piece.machine.execute 1).1.direct (.ofLines next second)).Abreast none
      (Session.cycles n ⟨m.direct all, answers, []⟩).machine := by
    refine together.machine.follow_on arrived running stops ?_
    intro settled
    rw [Program.ofLines_ops]
    exact (Op.sequence_plain settled (words second)).symm
  have resumed : Session.Abreast none
      ⟨(piece.machine.execute 1).1.direct (.ofLines next second), piece.answers, piece.log⟩
      (Session.cycles n ⟨m.direct all, answers, []⟩) :=
    ⟨follows, together.answers, together.events⟩
  have again : ((piece.machine.execute 1).1.direct (.ofLines next second)).Reachable :=
    (arrived.call (.execute 1)).call (.direct _)
  have alike := resumed.cycles again (Session.reachable_cycles alongside n) k (.inl rfl)
  rw [← Session.cycles_add] at alike
  exact ⟨alike.events, alike.answers, alike.machine.request, alike.machine.running,
    alike.machine.store⟩

/-- The second piece calls a function and reads a variable of the first. -/
theorem Machine.pieces_run_as_one_call :
    let first := ["func f input write end", "'b' x @"]
    let second := ["f x write"]
    let answers := [Answer.line "a"]
    let piece := Session.cycles 4 ⟨({} : Machine).direct (.ofLines "t" first), answers, []⟩
    let pieces := Session.cycles 7
      ⟨(piece.machine.execute 1).1.direct (.ofLines "u" second), piece.answers, piece.log⟩
    let once := Session.cycles (4 + 7)
      ⟨({} : Machine).direct (.ofLines "v" (first ++ second)), answers, []⟩
    (Program.ofLines "u" second).op? 0 ≠ some .assign ∧ piece.machine.isRunning = true ∧
      (piece.machine.execute 1).2 = .stopped ∧
      once.events = [.ask .line, .print "a", .print "b", .stopped] ∧
      pieces.events.map Event.unplaced = once.events.map Event.unplaced ∧
      pieces.machine.store.Like once.machine.store := by
  intro first second answers piece
  have fresh : (Program.ofLines "u" second).op? 0 ≠ some .assign := by decide +kernel
  have running : piece.machine.isRunning = true := by decide +kernel
  have stops : (piece.machine.execute 1).2 = .stopped := by decide +kernel
  obtain ⟨events, -, -, -, store⟩ :=
    pieces_run_as_one .initial first second "t" "u" "v" answers 4 fresh running stops 7
  refine ⟨fresh, running, stops, ?_, events, store⟩
  decide +kernel

end StackScript
