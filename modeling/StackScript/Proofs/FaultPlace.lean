import StackScript.Proofs.Lifecycle

/-!
Where faults point. A step that fails names the operation at which the running frame stood, and an
answer that fails names the operation that asked for it. A frame fails past its last operation only
at the end of a loop, which is an operation of the program as well.
-/
namespace StackScript

theorem Site.Raises.place {site : Site} {fault : Fault} (raises : site.Raises fault) :
    (fault.locate (site.program.location? site.address)).place =
      site.program.location? site.address := by
  cases raises with
  | plain unplaced kind =>
    rw [Fault.locate, unplaced]
    rfl
  | unclosed branches missing =>
    rw [Fault.locate, Block.find_place missing]
    cases site.program.location? site.address <;> rfl

theorem Block.find_whole {program : Program} {opener limit : Nat} {branches : Bool} {block : Block}
    (found : find program opener limit branches = .ok block) :
    find program opener program.size branches = .ok block := by
  have wider := find_extends (Nat.le_max_left limit program.size) found
  have same : find program opener (max limit program.size) branches =
      find program opener program.size branches := by
    unfold find
    rw [Nat.min_eq_right (Nat.le_max_right ..), Nat.min_self]
  rw [← same]
  exact wider

def Program.EndsLoop (program : Program) (close : Nat) : Prop :=
  ∃ opener, program.op? opener = some .loop ∧
    Block.find program opener program.size false = .ok ⟨opener, none, close⟩

theorem Program.EndsLoop.closes {program : Program} {close : Nat} (ends : program.EndsLoop close) :
    program.op? close = some .close ∧ close < program.size := by
  obtain ⟨opener, here, found⟩ := ends
  have encloses := Block.find_encloses here rfl found
  exact ⟨encloses.returns.closes.1, encloses.exist⟩

def Looped (frames : List Frame) : Prop :=
  ∀ frame ∈ frames, frame.kind = .loop → frame.program.EndsLoop frame.span.stop

namespace Looped

variable {frame : Frame} {below : List Frame}

theorem push (looped : Looped below)
    (ends : frame.kind = .loop → frame.program.EndsLoop frame.span.stop) :
    Looped (frame :: below) := by
  intro other member
  rcases List.mem_cons.mp member with rfl | older
  · exact ends
  · exact looped other older

theorem plain (looped : Looped below) (other : frame.kind ≠ .loop) : Looped (frame :: below) :=
  looped.push fun loop => absurd loop other

theorem drop (looped : Looped (frame :: below)) : Looped below := by
  intro other member
  exact looped other (List.mem_cons_of_mem _ member)

theorem top (looped : Looped (frame :: below)) (loop : frame.kind = .loop) :
    frame.program.EndsLoop frame.span.stop :=
  looped frame (List.mem_cons_self ..) loop

theorem resume (looped : Looped (frame :: below)) (next : Nat) :
    Looped (frame.resumeAt next :: below) :=
  looped.drop.push looped.top

end Looped

namespace Machine

theorem kept_looped : Kept fun _ _ frames => Looped frames where
  initial := nofun
  forgets _ := nofun
  idles _ := nofun
  begins kind first program before := by
    refine before.plain ?_
    rcases first with rfl | rfl <;> exact nofun
  attaches program before := before.plain nofun
  passes before _ := before.resume _
  works before _ _ _ _ := before.resume _
  enters before _ here effect := by
    have resumed := before.resume
    cases effect with
    | works control values stays asks => cases stays
    | takesBranch => exact (resumed _).plain nofun
    | calls => exact (resumed _).plain nofun
    | beginsLoop block found =>
      refine (resumed _).push fun _ => ⟨_, here, ?_⟩
      have whole := Block.find_whole found
      rw [Block.find_undivided whole] at whole
      rw [Block.find_undivided found]
      exact whole
  repeats before _ := before.resume _
  closes before := before.drop
  starts before _ _ := before.drop.plain nofun

variable {m : Machine} {frame : Frame} {below : List Frame}

/-- A step that fails does so at an operation of the program, or at the `end` of a `while` whose
condition has no truth. -/
theorem moves_place {after : Machine} {fault : Fault}
    (moved : m.Moves frame below after (some (.failed fault))) (placed : frame.Placed)
    (looped : Looped (frame :: below)) (fits : below.length < Stack.capacity) :
    frame.next < frame.program.size ∧ fault.place = frame.program.location? frame.next ∧
      (frame.next = frame.span.stop →
        frame.kind = .loop ∧ frame.program.EndsLoop frame.next ∧
          ∃ cause, m.store.wantsLoop = .error cause ∧
            fault = cause.locate (frame.program.location? frame.next)) := by
  have exist := placed.exist
  have bounded := placed.bounded
  generalize reported : some (Event.failed fault) = event at moved
  cases moved with
  | misses inside missing =>
    have there := (frame.program.op_isSome_iff frame.next).mpr (by omega)
    rw [missing] at there
    cases there
  | fails op cause store inside here due performed =>
    cases reported
    refine ⟨by omega, ?_, fun outside => by omega⟩
    cases Op.effect_of_perform performed with
    | fails values lost few left raised => exact raised.place
  | overflows op resume inner store inside =>
    cases reported
    exact ⟨by omega, rfl, fun outside => by omega⟩
  | doubts cause outside loop doubtful =>
    cases reported
    have same : frame.next = frame.span.stop := by omega
    have ends := looped.top loop
    rw [← same] at ends ⊢
    refine ⟨ends.closes.2, ?_, fun _ => ⟨loop, ends, cause, doubtful, rfl⟩⟩
    rw [Fault.locate, (wantsLoop_fault doubtful).1]
    rfl
  | chokes body outside entry main full => omega
  | works op store inside here due control => cases control <;> cases reported
  | closes => split at reported <;> cases reported
  | passes | enters | repeats | starts => cases reported

/-- `asker` was ready for the operation at which its newest frame, `frame`, stands. Carrying it out
made `m`, which waits for an answer to `request`; meanwhile `m` may have been told to stop. -/
structure AskedBy (m asker : Machine) (frame : Frame) (request : Request) : Prop where
  reached : asker.Reachable
  ready : asker.Ready
  top : asker.frames.top? = some frame
  cycle : asker.execute 1 = ({ m with interrupted := false }, .ask request)

/-- Every request that waits was made by a cycle, and nothing else waits with it. -/
def Asked (m : Machine) : Prop :=
  ∀ request, m.request = some request →
    m.fault = none ∧ ∃ asker frame, m.AskedBy asker frame request

theorem Asked.nothing (none : m.request = none) : m.Asked := by
  intro request asked
  cases none.symm.trans asked

theorem moves_asked {after : Machine} {event : Option Event} (reached : m.Reachable)
    (ready : m.Ready) (frames : m.frames = .ofList (frame :: below))
    (moved : m.Moves frame below after event) : after.Asked := by
  have noRequest := ready.noRequest
  cases moved with
  | passes | enters | repeats | closes | starts => exact .nothing noRequest
  | misses | fails | overflows | doubts | chokes => exact .nothing rfl
  | works op store inside here due control within performed =>
    intro request asked
    refine ⟨ready.noFault, m, frame, reached, ready, by rw [frames, Stack.top_ofList], ?_⟩
    rw [execute_one ready (step_works frames inside here due performed within)]
    cases control with
    | ask wanted =>
      cases asked
      simp only [Control.event?, Option.getD_some, ready.undisturbed]
    | proceed | jump | print => cases noRequest.symm.trans asked
    | enter resume inner => exact absurd rfl (within resume inner)

theorem lasting_asked : Lasting Asked where
  initial := .nothing rfl
  loads _ _ := .nothing rfl
  directs _ _ := .nothing rfl
  interrupts before := by
    intro request asked
    obtain ⟨noFault, asker, frame, made⟩ := before request asked
    exact ⟨noFault, asker, frame, made.reached, made.ready, made.top, made.cycle⟩
  fails _ _ := .nothing rfl
  enters line asked _ := by
    simp only [enter, asked]
    exact .nothing rfl
  attaches _ _ _ _ _ := .nothing rfl
  reports stored before := by
    intro request asked
    cases stored.symm.trans (before request asked).1
  stops _ _ := .nothing rfl
  moves reached ready frames moved _ := moves_asked reached ready frames moved

end Machine

def Request.op : Request → Op
  | .line => .input
  | .program _ => .attach

theorem Op.asks_by {op : Op} {request : Request} {site : Site} {store after : Store}
    (performed : op.perform site store = .ok (.ask request) after) : op = request.op := by
  have asking : op.asks := by
    cases effect_of_perform performed with
    | works control values stays asks => exact asks request rfl
  cases op with
  | input =>
    cases performed
    rfl
  | attach =>
    simp only [perform, Change.bind_eq, Change.pop_eq] at performed
    cases top : store.values.top? with
    | none =>
      rw [top] at performed
      cases performed
    | some path =>
      rw [top] at performed
      cases performed
      rfl
  | _ => cases asking

namespace Machine

variable {m asker : Machine} {frame : Frame} {request : Request}

theorem AskedBy.moves (made : m.AskedBy asker frame request) : ∃ below,
    asker.Moves frame below { m with interrupted := false } (some (.ask request)) := by
  obtain ⟨below, frames⟩ := Stack.top_eq_some made.top
  have moved := step_moves frames
  have cycle := made.cycle
  have loud := (step_quiet made.ready).1
  rcases stepped : asker.step with ⟨after, event⟩
  rw [execute_one made.ready stepped] at cycle
  rw [stepped] at moved loud
  cases event with
  | none => cases cycle
  | some event =>
    cases cycle
    exact ⟨below, moved⟩

theorem AskedBy.stands (made : m.AskedBy asker frame request) :
    frame.program.op? frame.next = some request.op ∧
      ∃ below, m.frames = .ofList (frame.resumeAt (frame.next + 1) :: below) := by
  obtain ⟨below, moved⟩ := made.moves
  generalize became : { m with interrupted := false } = after,
    reported : some (Event.ask request) = event at moved
  have frames : m.frames = after.frames := became ▸ rfl
  cases moved with
  | works op store inside here due control within performed =>
    cases control with
    | ask wanted =>
      cases reported
      exact ⟨Op.asks_by performed ▸ here, below, frames⟩
    | _ => cases reported
  | closes => split at reported <;> cases reported
  | _ => cases reported

theorem AskedBy.lastPlace (made : m.AskedBy asker frame request) :
    frame.program.op? frame.next = some request.op ∧
      m.lastPlace = frame.program.location? frame.next := by
  obtain ⟨here, below, frames⟩ := made.stands
  refine ⟨here, ?_⟩
  rw [Machine.lastPlace, frames]
  rfl

/-- A cycle that fails names the operation at which the newest frame stood; at the end of a frame
that is the `end` of a `while` whose condition has no truth. A request that cannot be met fails with
the place that the cause has, or else with that of the operation which asked, wherever it stands;
and so does an attached program for which there is no frame. -/
theorem faults_point_at_their_operation (reached : m.Reachable) :
    (∀ frame fault, m.Ready → m.frames.top? = some frame → (m.execute 1).2 = .failed fault →
      ∃ place, frame.program.location? frame.next = some place ∧ fault.place = some place ∧
        (frame.next = frame.span.stop →
          frame.kind = .loop ∧ frame.program.EndsLoop frame.next ∧
            ∃ cause, m.store.wantsLoop = .error cause ∧ fault = cause.locate place)) ∧
      ∀ request, m.request = some request →
        ∃ asker frame place, m.AskedBy asker frame request ∧
          frame.program.op? frame.next = some request.op ∧
          frame.program.location? frame.next = some place ∧
          (∀ cause cycles, ((m.fail cause).execute cycles).2 =
            .failed { cause with place := some (cause.place.getD place) }) ∧
          ∀ path program cycles, request = .program path →
            Stack.capacity ≤ m.frames.items.length →
            ((m.attach program).execute cycles).2 =
              .failed { overflow with place := some place } := by
  constructor
  · intro frame fault ready top failed
    obtain ⟨below, frames⟩ := Stack.top_eq_some top
    have enclosed : Enclosed m.store.functions m.frames.items := kept_enclosed.reachable reached
    have looped : Looped m.frames.items := kept_looped.reachable reached
    have fits := (reachable_steady reached).fits
    rw [frames, Stack.items_ofList] at enclosed looped fits
    have moved := step_moves frames
    rcases stepped : m.step with ⟨after, event⟩
    rw [execute_one ready stepped] at failed
    rw [stepped] at moved
    cases event with
    | none => cases failed
    | some event =>
      cases failed
      obtain ⟨exist, there, ends⟩ := moves_place moved enclosed.top looped fits
      obtain ⟨place, found⟩ := Option.isSome_iff_exists.mp
        ((frame.program.location_isSome_iff frame.next).mpr exist)
      rw [found] at there ends
      exact ⟨place, found, there, ends⟩
  · intro request asked
    obtain ⟨-, asker, frame, made⟩ := lasting_asked.reachable reached request asked
    obtain ⟨here, last⟩ := made.lastPlace
    have exist := (frame.program.op_isSome_iff frame.next).mp (by rw [here]; rfl)
    obtain ⟨place, found⟩ := Option.isSome_iff_exists.mp
      ((frame.program.location_isSome_iff frame.next).mpr exist)
    rw [found] at last
    refine ⟨asker, frame, place, made, here, found, ?_, ?_⟩
    · intro cause cycles
      have reported : ((m.fail cause).execute cycles).2 = .failed (cause.locate m.lastPlace) := rfl
      rw [reported, last, Fault.locate]
      cases cause.place <;> rfl
    · intro path program cycles wanted full
      subst wanted
      have same : m.frames = .ofList m.frames.items := Stack.eq_of_items rfl
      rw [attach_eq asked program _ same, if_pos full]
      have reported : (({ m with request := none }.fail overflow).execute cycles).2 =
          .failed (overflow.locate m.lastPlace) := rfl
      rw [reported, last]
      rfl

/-- A division in a function of an attached program, and the same `attach` when the program is
missing. -/
theorem faults_point_at_their_operation_attached :
    let asking := (({} : Machine).after (.direct (.ofText "main" "'lib' attach f"))).after (.execute 2)
    let program := Program.ofText "lib" "func f 0 0 / end"
    let m := (asking.after (.attach program)).after (.execute 5)
    let fault : Fault := { kind := .divisionByZero, place := some ⟨"lib", 1, ⟨11, 12⟩⟩ }
    let missing : Fault := { kind := .fileNotFound, detail := "lib" }
    (m.Reachable ∧ m.Ready ∧ m.frames.top? = some ⟨.call, program, ⟨2, 5⟩, 4, 1⟩ ∧
      (m.execute 1).2 = .failed fault ∧
      ∃ place, program.location? 4 = some place ∧ fault.place = some place) ∧
    asking.Reachable ∧ asking.request = some (.program "lib") ∧
      ∃ asker frame place, asking.AskedBy asker frame (.program "lib") ∧
        frame.program.location? frame.next = some place ∧
        ((asking.fail missing).execute 1).2 = .failed { missing with place := some place } := by
  intro asking program m fault missing
  have asked : asking.request = some (.program "lib") := by decide +kernel
  have top : m.frames.top? = some ⟨.call, program, ⟨2, 5⟩, 4, 1⟩ := by decide +kernel
  have failed : (m.execute 1).2 = .failed fault := by decide +kernel
  have ready : m.Ready :=
    ⟨by decide +kernel, by decide +kernel, by decide +kernel, by decide +kernel⟩
  have waiting : asking.Reachable := (Reachable.initial.call (.direct _)).call (.execute 2)
  have reached : m.Reachable := (waiting.call (.attach program)).call (.execute 5)
  obtain ⟨place, there, found, -⟩ :=
    (faults_point_at_their_operation reached).1 _ fault ready top failed
  obtain ⟨asker, frame, site, made, -, located, refused, -⟩ :=
    (faults_point_at_their_operation waiting).2 _ asked
  exact ⟨⟨reached, ready, top, failed, place, there, found⟩,
    waiting, asked, asker, frame, site, made, located, refused missing 1⟩

end Machine
end StackScript
