import Std.Data.ExtTreeMap.Lemmas
import StackScript.Proofs.Nesting
import StackScript.Proofs.Reach

/-!
Blocks that have no end can only show at the top level of a file. Frames run either a whole program
or a sealed span, function bodies are sealed spans, and in a sealed span every block has its end.
-/
namespace StackScript

/-- A body in the function table: it stands between its `func` with the name and the end of that. -/
structure Body.Defines (name : String) (body : Body) : Prop where
  room : 2 ≤ body.span.start
  opener : body.program.op? (body.span.start - 2) = some .define
  named : body.program.op? (body.span.start - 1) = some (.functionName name)
  closed : body.program.op? body.span.stop = some .close
  found : Block.find body.program (body.span.start - 2) body.program.size false =
    .ok ⟨body.span.start - 2, none, body.span.stop⟩

/-- The address of a frame lies in its span and the span in its program. The span is the whole
program or sealed; a sealed one stands behind an opener. -/
structure Frame.Placed (frame : Frame) : Prop where
  begun : frame.span.start ≤ frame.next
  bounded : frame.next ≤ frame.span.stop
  exist : frame.span.stop ≤ frame.program.size
  shape : frame.span = frame.program.span ∨
    0 < frame.span.start ∧ Sealed frame.program frame.span

structure Enclosed (functions : Functions) (frames : List Frame) : Prop where
  bodies : ∀ name body, functions[name]? = some body → Body.Defines name body
  placed : ∀ frame ∈ frames, frame.Placed

namespace Body.Defines

variable {name : String} {body : Body}

theorem encloses (defines : Defines name body) :
    Block.Encloses body.program (body.span.start - 2) body.program.size
      ⟨body.span.start - 2, none, body.span.stop⟩ :=
  Block.find_encloses defines.opener rfl defines.found

/-- The name behind `func` opens and closes nothing, so the body may begin after it. -/
theorem start_le_stop (defines : Defines name body) : body.span.start ≤ body.span.stop := by
  have room := defines.room
  have after := defines.encloses.returns.after
  simp only at after
  by_cases named : body.span.stop = body.span.start - 1
  · have closed := defines.closed
    rw [named, defines.named] at closed
    cases closed
  · omega

theorem sealed (defines : Defines name body) : Sealed body.program body.span := by
  have room := defines.room
  have encloses := defines.encloses
  refine Sealed.of_above (Nat.le_of_lt encloses.exist) encloses.returns.closes.2 ?_
  intro k low high
  change body.span.start ≤ k at low
  exact encloses.returns.above k (by omega) high

end Body.Defines

namespace Frame.Placed

variable {frame : Frame}

theorem whole (kind : Frame.Kind) (program : Program) (scope : Nat) :
    (Frame.start kind program program.span scope).Placed :=
  ⟨Nat.le_refl _, Nat.zero_le _, Nat.le_refl _, .inl rfl⟩

theorem inner (kind : Frame.Kind) {program : Program} {span : Span} (scope : Nat)
    (behind : 0 < span.start) (nonempty : span.start ≤ span.stop) (shut : Sealed program span) :
    (Frame.start kind program span scope).Placed :=
  ⟨Nat.le_refl _, nonempty, shut.exist, .inr ⟨behind, shut⟩⟩

theorem resume (placed : frame.Placed) {next : Nat} (low : frame.span.start ≤ next)
    (high : next ≤ frame.span.stop) : (frame.resumeAt next).Placed :=
  ⟨low, high, placed.exist, placed.shape⟩

theorem of_block (kind : Frame.Kind) {program : Program} {opener limit : Nat} {block : Block}
    (scope : Nat) (encloses : Block.Encloses program opener limit block) :
    (Frame.start kind program block.body scope).Placed := by
  have begins := encloses.begins
  have after := encloses.returns.after
  refine .inner kind scope (Nat.succ_pos _) ?_ (.body encloses)
  unfold Block.body
  cases chosen : block.middle with
  | none =>
    simp only [Option.getD_none]
    omega
  | some middle =>
    have divides := encloses.divides middle chosen
    simp only [Option.getD_some]
    omega

theorem of_alternative (kind : Frame.Kind) {program : Program} {opener limit : Nat} {block : Block}
    {span : Span} (scope : Nat) (encloses : Block.Encloses program opener limit block)
    (chosen : block.alternative = some span) :
    (Frame.start kind program span scope).Placed := by
  have shut := Sealed.alternative encloses chosen
  unfold Block.alternative at chosen
  obtain ⟨middle, found, rfl⟩ := Option.map_eq_some_iff.mp chosen
  exact .inner kind scope (Nat.succ_pos _) (encloses.divides middle found).2.1 shut

theorem of_body {name : String} {body : Body} (kind : Frame.Kind) (scope : Nat)
    (defines : Body.Defines name body) :
    (Frame.start kind body.program body.span scope).Placed := by
  have room := defines.room
  exact .inner kind scope (by omega) defines.start_le_stop defines.sealed

end Frame.Placed

namespace Enclosed

variable {functions : Functions} {frame : Frame} {below : List Frame}

theorem top (enclosed : Enclosed functions (frame :: below)) : frame.Placed :=
  enclosed.placed frame (List.mem_cons_self ..)

theorem drop (enclosed : Enclosed functions (frame :: below)) : Enclosed functions below :=
  ⟨enclosed.bodies, fun other member => enclosed.placed other (List.mem_cons_of_mem _ member)⟩

theorem push (enclosed : Enclosed functions below) (placed : frame.Placed) :
    Enclosed functions (frame :: below) := by
  refine ⟨enclosed.bodies, ?_⟩
  intro other member
  rcases List.mem_cons.mp member with rfl | older
  · exact placed
  · exact enclosed.placed other older

theorem resume (enclosed : Enclosed functions (frame :: below)) {next : Nat}
    (low : frame.span.start ≤ next) (high : next ≤ frame.span.stop) :
    Enclosed functions (frame.resumeAt next :: below) :=
  enclosed.drop.push (enclosed.top.resume low high)

theorem define (enclosed : Enclosed functions below) {name : String} {body : Body}
    (defines : Body.Defines name body) : Enclosed (functions.insert name body) below := by
  refine ⟨?_, enclosed.placed⟩
  intro other found defined
  rw [Std.ExtTreeMap.getElem?_insert] at defined
  split at defined
  · rename_i same
    cases defined
    rw [← Std.LawfulEqOrd.eq_of_compare same]
    exact defines
  · exact enclosed.bodies other found defined

end Enclosed

namespace Machine

variable {frame : Frame} {op : Op}

theorem defines_of_find {name : String} {block : Block} (placed : frame.Placed)
    (here : frame.program.op? frame.next = some .define)
    (named : (siteOf frame).operand? = some (.functionName name))
    (found : Block.find frame.program frame.next frame.span.stop false = .ok block) :
    Body.Defines name ⟨frame.program, ⟨frame.next + 2, block.close⟩⟩ := by
  have encloses := Block.find_encloses here rfl found
  refine ⟨Nat.le_add_left .., here, ?_, encloses.returns.closes.1, ?_⟩
  · unfold Site.operand? at named
    split at named
    · exact named
    · cases named
  · have wider := Block.find_extends placed.exist found
    rw [Block.find_undivided found] at wider
    exact wider

theorem resume_behind {functions : Functions} {below : List Frame} {branches : Bool} {block : Block}
    (enclosed : Enclosed functions (frame :: below))
    (here : frame.program.op? frame.next = some op) (opens : op.opensBlock)
    (found : Block.find frame.program frame.next frame.span.stop branches = .ok block) :
    Enclosed functions (frame.resumeAt (block.close + 1) :: below) := by
  have encloses := Block.find_encloses here opens found
  have begun := enclosed.top.begun
  have after := encloses.returns.after
  exact enclosed.resume (by omega) encloses.early

theorem enters_inner {store after : Store} {inner : Frame} {below : List Frame} {resume : Nat}
    (enclosed : Enclosed store.functions (frame :: below))
    (here : frame.program.op? frame.next = some op)
    (effect : op.Effect (siteOf frame) store (.ok (.enter resume inner) after)) :
    inner.Placed ∧ 0 < inner.span.start := by
  cases effect with
  | works control values stays asks => cases stays
  | takesBranch block span values found chosen =>
    have encloses := Block.find_encloses here rfl found
    rcases chosen with rfl | chosen
    · exact ⟨.of_block .block _ encloses, Nat.succ_pos _⟩
    · refine ⟨.of_alternative .block _ encloses chosen, ?_⟩
      unfold Block.alternative at chosen
      obtain ⟨middle, -, rfl⟩ := Option.map_eq_some_iff.mp chosen
      exact Nat.succ_pos _
  | beginsLoop block found =>
    exact ⟨.of_block .loop _ (Block.find_encloses here rfl found), Nat.succ_pos _⟩
  | calls name body defined =>
    have defines := enclosed.bodies _ _ defined
    exact ⟨.of_body .call _ defines, Nat.lt_of_lt_of_le Nat.zero_lt_two defines.room⟩

theorem kept_enclosed : Kept fun _ functions frames => Enclosed functions frames where
  initial := ⟨by simp, by simp⟩
  forgets _ := ⟨by simp, by simp⟩
  idles before := ⟨before.bodies, by simp⟩
  begins kind _ program before := before.push (.whole kind program 0)
  attaches program before := before.push (.whole .attached program _)
  passes before inside := by
    have begun := before.top.begun
    exact before.resume (by omega) inside
  works before inside here within effect := by
    have begun := before.top.begun
    cases effect with
    | works control values stays asks =>
      rw [Control.resume_stays stays]
      exact before.resume (by omega) inside
    | takesBranch block span values found chosen => exact absurd rfl (within _ _)
    | skipsBranch block values found => exact resume_behind before here rfl found
    | beginsLoop block found => exact absurd rfl (within _ _)
    | skipsLoop block found => exact resume_behind before here rfl found
    | defines name block named found =>
      exact (resume_behind before here rfl found).define
        (defines_of_find before.top here named found)
    | declares name named =>
      refine before.resume (by simp only [Control.resume, siteOf]; omega) ?_
      unfold Site.operand? at named
      split at named
      · assumption
      · cases named
    | assigns name value values => exact before.resume (by simp only [Control.resume]; omega) inside
    | calls name body defined => exact absurd rfl (within _ _)
  enters before inside here effect := by
    have begun := before.top.begun
    have inner := (enters_inner before here effect).1
    cases effect with
    | works control values stays asks => cases stays
    | takesBranch block span values found chosen =>
      exact (resume_behind before here rfl found).push inner
    | beginsLoop block found => exact (resume_behind before here rfl found).push inner
    | calls name body defined => exact (before.resume (by omega) inside).push inner
  repeats before _ := before.resume (Nat.le_refl _) (Nat.le_trans before.top.begun before.top.bounded)
  closes before := before.drop
  starts before _ main := before.drop.push (.of_body .block _ (before.bodies _ _ main))

/-- A step of `m` starts `inner`: a branch, a loop's body or a call above the frame that ran, or
`main` in the place of the program's top level. -/
def Starts (m : Machine) (inner : Frame) : Prop :=
  ∃ frame below, m.frames.items = frame :: below ∧
    ((∃ resume, m.step.1.frames.items = inner :: frame.resumeAt resume :: below) ∨
      frame.kind = .entry ∧ frame.span.stop ≤ frame.next ∧
        m.step.1.frames.items = inner :: below)

theorem span_ne_of_behind {frame : Frame} (behind : 0 < frame.span.start) :
    frame.span ≠ frame.program.span := by
  intro same
  rw [same] at behind
  exact Nat.lt_irrefl 0 behind

theorem starts_behind {m : Machine} {inner : Frame}
    (enclosed : Enclosed m.store.functions m.frames.items) (starts : m.Starts inner) :
    0 < inner.span.start := by
  obtain ⟨frame, below, items, started⟩ := starts
  rw [items] at enclosed
  have moved := step_moves (Stack.eq_of_items items : m.frames = .ofList (frame :: below))
  generalize m.step.1 = after, m.step.2 = event at started moved
  rcases started with ⟨resume, entered⟩ | ⟨entry, outside, replaced⟩
  · have height : after.frames.items.length = below.length + 2 := by
      rw [entered, List.length_cons, List.length_cons]
    cases moved with
    | enters op resume inner store inside here due performed room =>
      cases entered
      exact (enters_inner enclosed here (Op.effect_of_perform performed)).2
    | passes | works | repeats | closes | starts =>
      simp only [Stack.items_ofList, List.length_cons] at height
      omega
    | misses | fails | overflows | doubts | chokes =>
      simp only [stop, Stack.items_empty, List.length_nil] at height
      omega
  · have height : after.frames.items.length = below.length + 1 := by
      rw [replaced, List.length_cons]
    cases moved with
    | starts body outside entry main room =>
      cases replaced
      exact Nat.lt_of_lt_of_le Nat.zero_lt_two (enclosed.bodies _ _ main).room
    | passes _ inside | works _ _ inside | enters _ _ _ _ inside => omega
    | repeats _ loop =>
      rw [entry] at loop
      cases loop
    | closes =>
      simp only [Stack.items_ofList] at height
      omega
    | misses | fails | overflows | doubts | chokes =>
      simp only [stop, Stack.items_empty, List.length_nil] at height
      omega

/-- An operation whose block is there does not miss its end. -/
theorem no_missing_end {m : Machine} {below : List Frame} {fault : Fault}
    (frames : m.frames = .ofList (frame :: below)) (inside : frame.next < frame.span.stop)
    (found : ∀ branches, ∃ block,
      Block.find frame.program frame.next frame.span.stop branches = .ok block)
    (failed : m.step.2 = some (.failed fault)) : fault.kind ≠ .missingEnd := by
  have moved := step_moves frames
  generalize m.step.1 = after, m.step.2 = event at failed moved
  cases moved with
  | misses => cases failed; simp
  | fails op fault store inside here due performed =>
    cases failed
    cases Op.effect_of_perform performed with
    | fails values lost few left raised =>
      cases raised with
      | plain unplaced kind =>
        intro same
        change fault.kind = .missingEnd at same
        rw [same] at kind
        exact absurd kind (by decide)
      | unclosed branches missing =>
        obtain ⟨block, there⟩ := found branches
        cases there.symm.trans missing
  | works op store inside here due control within performed =>
    cases control <;> cases failed
  | overflows => cases failed; simp [Fault.locate, overflow]
  | passes | enters => cases failed
  | repeats outside | doubts _ outside | closes outside | starts _ outside | chokes _ outside => omega

/-- Blocks without an end show only at the top level of a file, in frames that span their program.
Every function has its `func` and its end around it; in a frame that a step started, every opener has
its end before the frame's; and no frame's end hides the end of a block that the program has. -/
theorem blocks_end_inside_their_frame {m : Machine} (reached : m.Reachable) :
    (∀ name body, m.store.functions[name]? = some body → Body.Defines name body) ∧
      (∀ frame op, m.frames.top? = some frame → frame.next < frame.span.stop →
        frame.program.op? frame.next = some op → op.opensBlock →
        (∀ branches, Block.find frame.program frame.next frame.span.stop branches =
          Block.find frame.program frame.next frame.program.size branches) ∧
        (frame.span ≠ frame.program.span →
          (∀ branches, ∃ block,
            Block.find frame.program frame.next frame.span.stop branches = .ok block ∧
              block.close < frame.span.stop) ∧
          ∀ fault, m.step.2 = some (.failed fault) → fault.kind ≠ .missingEnd)) ∧
      ∀ inner, m.Starts inner → inner.span ≠ inner.program.span := by
  have enclosed : Enclosed m.store.functions m.frames.items := kept_enclosed.reachable reached
  refine ⟨enclosed.bodies, ?_, fun inner starts => span_ne_of_behind (starts_behind enclosed starts)⟩
  intro frame op top inside here opens
  obtain ⟨below, frames⟩ := Stack.top_eq_some top
  have placed := enclosed.placed frame (by rw [frames]; exact List.mem_cons_self ..)
  rcases placed.shape with whole | ⟨-, shut⟩
  · refine ⟨?_, fun other => absurd whole other⟩
    intro branches
    rw [whole]
    rfl
  · have ends := shut.find here opens placed.begun inside
    have found : ∀ branches, ∃ block,
        Block.find frame.program frame.next frame.span.stop branches = .ok block := by
      intro branches
      obtain ⟨block, found, -⟩ := ends branches
      exact ⟨block, found⟩
    refine ⟨?_, fun _ => ⟨ends, fun fault => no_missing_end frames inside found⟩⟩
    intro branches
    obtain ⟨block, found⟩ := found branches
    rw [found, Block.find_extends placed.exist found]

/-- A call that stands at an `if` of its body. -/
theorem block_ends_inside_call :
    let program := Program.ofText "t" "func f 1 if 2 end end f"
    let m := (({} : Machine).after (.direct program)).after (.execute 3)
    let frame : Frame := ⟨.call, program, ⟨2, 6⟩, 3, 1⟩
    m.Reachable ∧ m.frames.top? = some frame ∧ program.op? 3 = some .branch ∧
      ∃ block, Block.find program 3 6 true = .ok block ∧ block.close < 6 := by
  intro program m frame
  have reached : m.Reachable := (Reachable.initial.call (.direct program)).call (.execute 3)
  have top : m.frames.top? = some frame := by decide +kernel
  have here : program.op? 3 = some .branch := by decide +kernel
  have inner : frame.span ≠ program.span := by decide +kernel
  have ends := (blocks_end_inside_their_frame reached).2.1 frame .branch top (by decide) here rfl
  exact ⟨reached, top, here, (ends.2 inner).1 true⟩

end Machine
end StackScript
