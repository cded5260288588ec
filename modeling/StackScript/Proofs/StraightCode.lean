import StackScript.Proofs.Lifecycle

/-!
Code without loops and calls. Its frames wait one behind the other, each to go on after the end of
the one above it, so that addresses only grow. To leave a branch takes a cycle, but then none is taken
for its `end`, so that a cycle for every operation and one for the end of the code are enough.
-/
namespace StackScript

def Op.isStraight : Op → Bool
  | .loop | .define | .attach => false
  | _ => true

def Op.calls (functions : Functions) : Op → Bool
  | .word name => functions[name]?.isSome
  | _ => false

def Event.ends : Event → Bool
  | .stopped | .failed _ => true
  | _ => false

namespace Program

def Straight (program : Program) : Prop :=
  ∀ instruction ∈ program.code, instruction.op.isStraight = true

def Callless (program : Program) (functions : Functions) : Prop :=
  ∀ instruction ∈ program.code, instruction.op.calls functions = false

def branches (program : Program) : Nat :=
  program.code.countP fun instruction => instruction.op = .branch

variable {program : Program} {address : Nat}

theorem mem_of_op {op : Op} (here : program.op? address = some op) :
    ∃ instruction ∈ program.code, instruction.op = op := by
  obtain ⟨instruction, there, same⟩ := Option.map_eq_some_iff.mp here
  exact ⟨instruction, Array.mem_of_getElem? there, same⟩

theorem Straight.op {op : Op} (straight : program.Straight) (here : program.op? address = some op) :
    op.isStraight = true := by
  obtain ⟨instruction, member, rfl⟩ := mem_of_op here
  exact straight instruction member

theorem Callless.word {functions : Functions} {name : String} (callless : program.Callless functions)
    (here : program.op? address = some (.word name)) : functions[name]? = none := by
  obtain ⟨instruction, member, same⟩ := mem_of_op here
  have undefined := callless instruction member
  rw [same] at undefined
  cases found : functions[name]? with
  | none => rfl
  | some body => simp [Op.calls, found] at undefined

end Program

/-- Frames that wait for one another: the newest goes on at `low` or later, and every other one where
the frame above it ends or later. -/
inductive Queued (program : Program) : Nat → List Frame → Prop where
  | nil (low : Nat) : Queued program low []
  | cons {low : Nat} {frame : Frame} {below : List Frame} (same : frame.program = program)
      (plain : frame.kind = .block) (fresh : low ≤ frame.next)
      (bounded : frame.next ≤ frame.span.stop) (later : Queued program frame.span.stop below) :
      Queued program low (frame :: below)

namespace Queued

def remaining : List Frame → Nat
  | [] => 0
  | frame :: below => frame.span.stop - frame.next + 1 + remaining below

variable {program : Program} {low : Nat} {frame : Frame} {below : List Frame}

theorem mono {high : Nat} (queued : Queued program high below) (more : low ≤ high) :
    Queued program low below := by
  cases queued with
  | nil => exact .nil low
  | cons same plain fresh bounded later =>
    exact .cons same plain (Nat.le_trans more fresh) bounded later

end Queued

theorem Block.Encloses.branch_between {program : Program} {opener limit : Nat} {block : Block}
    {span : Span} (encloses : Block.Encloses program opener limit block)
    (chosen : span = block.body ∨ block.alternative = some span) :
    opener < span.start ∧ span.start ≤ span.stop ∧ span.stop ≤ block.close := by
  have begins := encloses.begins
  have after := encloses.returns.after
  rcases chosen with rfl | chosen
  · unfold Block.body
    cases divided : block.middle with
    | none => exact ⟨by simp only; omega, by simp only [Option.getD_none]; omega, Nat.le_refl _⟩
    | some middle =>
      have divides := encloses.divides middle divided
      simp only [Option.getD_some]
      omega
  · obtain ⟨middle, divided, rfl⟩ := Option.map_eq_some_iff.mp chosen
    have divides := encloses.divides middle divided
    simp only
    omega

namespace Machine

variable {program : Program} {m after : Machine} {frame : Frame} {below : List Frame}
  {event : Option Event} {op : Op} {store : Store} {low left : Nat}

theorem resume_between {control : Control} {final : Store} (straight : frame.program.Straight)
    (callless : frame.program.Callless store.functions) (inside : frame.next < frame.span.stop)
    (here : frame.program.op? frame.next = some op)
    (effect : op.Effect (siteOf frame) store (.ok control final)) :
    final.functions = store.functions ∧ frame.next < control.resume frame.next ∧
      control.resume frame.next ≤ frame.span.stop := by
  have behind {block : Block} {branches : Bool} (opens : op.opensBlock)
      (found : Block.find frame.program frame.next frame.span.stop branches = .ok block) :
      frame.next < block.close + 1 ∧ block.close + 1 ≤ frame.span.stop := by
    have encloses := Block.find_encloses here opens found
    have after := encloses.returns.after
    have early := encloses.early
    omega
  cases effect with
  | works control values stays =>
    rw [Control.resume_stays stays]
    exact ⟨rfl, by omega, inside⟩
  | takesBranch block span values found => exact ⟨rfl, behind rfl found⟩
  | skipsBranch block values found => exact ⟨rfl, behind rfl found⟩
  | beginsLoop | skipsLoop => cases straight.op here
  | defines => cases straight.op here
  | declares name named =>
    refine ⟨rfl, Nat.lt_add_of_pos_right (by decide), ?_⟩
    unfold Site.operand? at named
    split at named
    · assumption
    · cases named
  | assigns => exact ⟨rfl, Nat.lt_succ_self _, inside⟩
  | calls name body defined =>
    cases (callless.word here).symm.trans defined

/-- What is entered is a branch: it stands behind the operation and ends before the operation after it. -/
theorem enters_between {resume : Nat} {inner : Frame} {final : Store}
    (straight : frame.program.Straight) (callless : frame.program.Callless store.functions)
    (here : frame.program.op? frame.next = some op)
    (effect : op.Effect (siteOf frame) store (.ok (.enter resume inner) final)) :
    (inner.program = frame.program ∧ inner.kind = .block) ∧
      frame.next < inner.next ∧ inner.next ≤ inner.span.stop ∧ inner.span.stop < resume := by
  cases effect with
  | works control values stays => cases stays
  | takesBranch block span values found chosen =>
    have encloses := Block.find_encloses here rfl found
    obtain ⟨above, nonempty, early⟩ := encloses.branch_between chosen
    exact ⟨⟨rfl, rfl⟩, above, nonempty, Nat.lt_succ_of_le early⟩
  | beginsLoop => cases straight.op here
  | calls name body defined =>
    cases (callless.word here).symm.trans defined

theorem asks_line {request : Request} {final : Store} (straight : frame.program.Straight)
    (here : frame.program.op? frame.next = some op)
    (performed : op.perform (siteOf frame) store = .ok (.ask request) final) : request = .line := by
  cases op with
  | input =>
    cases performed
    rfl
  | attach => cases straight.op here
  | _ =>
    cases Op.effect_of_perform performed with
    | works control values stays asks => cases asks request rfl

/-- A machine that has the program before it from `low` on, and needs at most `left` cycles for it. -/
structure Underway (program : Program) (low left : Nat) (m : Machine) : Prop where
  ready : m.Ready
  callless : program.Callless m.store.functions
  queued : Queued program low m.frames.items
  enough : Queued.remaining m.frames.items ≤ left

theorem Underway.starts (callless : program.Callless m.store.functions) :
    Underway program 0 (program.size + 1) (m.direct program) where
  ready := ⟨rfl, rfl, rfl, rfl⟩
  callless := callless
  queued := .cons rfl rfl (Nat.zero_le _) (Nat.zero_le _) (.nil _)
  enough := Nat.le_refl _

theorem Underway.answer (underway : Underway program low left { m with request := none })
    (asked : ∀ request, m.request = some request → request = .line) (line : String) :
    Underway program low left (m.enter line) := by
  obtain ⟨⟨noFault, -, running, undisturbed⟩, callless, queued, enough⟩ := underway
  unfold enter
  split
  · exact ⟨⟨noFault, rfl, running, undisturbed⟩, callless, queued, enough⟩
  · rename_i other
    have noRequest : m.request = none := by
      cases waiting : m.request with
      | none => rfl
      | some request => exact absurd (asked request waiting ▸ waiting) other
    exact ⟨⟨noFault, noRequest, running, undisturbed⟩, callless, queued, enough⟩

theorem Underway.unasked (underway : Underway program low left m) (line : String) :
    Underway program low left (m.enter line) := by
  rw [enter_unasked underway.ready.noRequest]
  exact underway

/-- A step ends the run, or uses up a cycle and, inside the newest frame, an address. -/
theorem moves_underway (straight : program.Straight) (underway : Underway program low (left + 1) m)
    (frames : m.frames = .ofList (frame :: below)) (moved : m.Moves frame below after event)
    (line : String) :
    (after.Idle ∧ (event.getD .running).ends) ∨
      ∃ high, low ≤ high ∧ (frame.next < frame.span.stop → frame.next < high) ∧
        Underway program high left (after.enter line) := by
  obtain ⟨⟨noFault, noRequest, -, undisturbed⟩, callless, queued, enough⟩ := underway
  rw [frames, Stack.items_ofList] at queued enough
  rw [Queued.remaining] at enough
  obtain ⟨⟩ | ⟨rfl, plain, fresh, bounded, later⟩ := queued
  cases moved with
  | misses | fails | overflows | doubts | chokes => exact .inl ⟨.stop noFault, rfl⟩
  | passes op inside here skipped =>
    rw [plain] at skipped
    cases skipped
  | repeats outside loop => cases plain.symm.trans loop
  | starts body outside entry => cases plain.symm.trans entry
  | works op store inside here due control within performed =>
    obtain ⟨functions, behind, early⟩ :=
      resume_between straight callless inside here (Op.effect_of_perform performed)
    refine .inr ⟨frame.next + 1, by omega, fun _ => Nat.lt_succ_self _, .answer ?_ ?_ line⟩
    · refine ⟨⟨noFault, rfl, rfl, undisturbed⟩, ?_, .cons rfl plain behind early later, ?_⟩
      · rw [functions]
        exact callless
      · simp only [Stack.items_ofList, Queued.remaining, Frame.resumeAt]
        omega
    · intro request waiting
      cases control with
      | ask asked =>
        cases waiting
        exact asks_line straight here performed
      | _ => cases noRequest.symm.trans waiting
  | enters op resume inner store inside here due performed room =>
    have effect := Op.effect_of_perform performed
    obtain ⟨functions, -, early⟩ := resume_between straight callless inside here effect
    obtain ⟨⟨same, block⟩, behind, nonempty, before⟩ := enters_between straight callless here effect
    simp only [Control.resume] at early
    have caller : Queued frame.program inner.span.stop (frame.resumeAt resume :: below) :=
      .cons rfl plain (Nat.le_of_lt before) early later
    have queued : Queued frame.program (frame.next + 1) (inner :: frame.resumeAt resume :: below) :=
      .cons same block behind nonempty caller
    refine .inr ⟨frame.next + 1, by omega, fun _ => Nat.lt_succ_self _, .unasked ?_ line⟩
    refine ⟨⟨noFault, noRequest, rfl, undisturbed⟩, ?_, queued, ?_⟩
    · rw [functions]
      exact callless
    -- The `end` that the caller passes over pays for the end of the branch.
    · simp only [Stack.items_ofList, Queued.remaining, Frame.resumeAt]
      omega
  | closes outside spent alone =>
    cases below with
    | nil => exact .inl ⟨⟨⟨rfl, noRequest, undisturbed⟩, noFault⟩, rfl⟩
    | cons caller below =>
      refine .inr ⟨low, Nat.le_refl low, fun inside => by omega, .unasked ?_ line⟩
      refine ⟨⟨noFault, noRequest, rfl, undisturbed⟩, callless, later.mono (by omega), ?_⟩
      rw [Stack.items_ofList]
      omega

def Dispatches (m : Machine) (program : Program) (address : Nat) : Prop :=
  m.Ready ∧ ∃ frame op, m.frames.top? = some frame ∧ frame.program = program ∧
    frame.next = address ∧ address < frame.span.stop ∧ program.op? address = some op ∧
    (frame.kind.isTopLevel && !op.isTopLevel) = false

theorem Dispatches.top {address : Nat} (frames : m.frames = .ofList (frame :: below))
    (dispatches : m.Dispatches program address) :
    frame.program = program ∧ frame.next = address ∧ frame.next < frame.span.stop := by
  obtain ⟨-, other, op, top, same, next, inside, -⟩ := dispatches
  rw [frames, Stack.top_ofList] at top
  cases top
  exact ⟨same, next, next ▸ inside⟩

theorem Idle.dispatches_nothing (idle : m.Idle) (address : Nat) : ¬m.Dispatches program address := by
  intro ⟨ready, _⟩
  cases idle.ended.symm.trans ready.running

/-- One cycle and the answer to it. What is dispatched in it is an address of the program between
the old and the new `low`. -/
theorem Underway.cycle (straight : program.Straight) (underway : Underway program low left m)
    (line : String) :
    ∃ high, low ≤ high ∧
      (∀ other address, m.Dispatches other address →
        other = program ∧ low ≤ address ∧ address < high) ∧
      0 < left ∧
      (((m.execute 1).1.enter line).Idle ∧ (m.execute 1).2.ends ∨
        Underway program high (left - 1) ((m.execute 1).1.enter line)) := by
  obtain ⟨frame, below, frames⟩ := frames_of_running underway.ready.running
  have queued := underway.queued
  have enough := underway.enough
  rw [frames, Stack.items_ofList] at queued enough
  rw [Queued.remaining] at enough
  obtain ⟨⟩ | ⟨same, -, fresh, -, -⟩ := queued
  obtain ⟨left, rfl⟩ := Nat.exists_eq_add_one.mpr (by omega : 0 < left)
  have moved := step_moves frames
  have executed : m.execute 1 = (m.step.1, m.step.2.getD .running) := execute_one underway.ready rfl
  rw [executed]
  rcases moves_underway straight underway frames moved line with
    ⟨idle, ended⟩ | ⟨high, more, behind, underway⟩
  · refine ⟨frame.next + 1, by omega, ?_, Nat.succ_pos left, .inl ⟨?_, ended⟩⟩
    · intro other address dispatches
      obtain ⟨rfl, rfl, -⟩ := dispatches.top frames
      exact ⟨same, fresh, Nat.lt_succ_self _⟩
    · rw [enter_unasked idle.noRequest]
      exact idle
  · refine ⟨high, more, ?_, Nat.succ_pos left, .inr underway⟩
    intro other address dispatches
    obtain ⟨rfl, rfl, inside⟩ := dispatches.top frames
    exact ⟨same, fresh, behind inside⟩

/-- After `n` cycles. Each is followed by an answer, which counts if the cycle asked for it. -/
def answered (m : Machine) (lines : Nat → String) : Nat → Machine
  | 0 => m
  | n + 1 => ((m.answered lines n).execute 1).1.enter (lines n)

/-- After any number of cycles the code is underway, with a cycle less for each of them, or it has
ended in one of them. What was dispatched in them is below what comes. -/
theorem answered_underway (straight : program.Straight)
    (callless : program.Callless m.store.functions) (lines : Nat → String) (n : Nat) :
    let run := (m.direct program).answered lines
    ∃ low,
      (∀ i < n, ∀ other address, (run i).Dispatches other address →
        other = program ∧ address < low) ∧
      ((∃ left, left + n = program.size + 1 ∧ Underway program low left (run n)) ∨
        (run n).Idle ∧ ∃ last < n, last ≤ program.size ∧ ((run last).execute 1).2.ends) := by
  intro run
  induction n with
  | zero => exact ⟨0, nofun, .inl ⟨program.size + 1, rfl, .starts callless⟩⟩
  | succ n ih =>
    obtain ⟨low, earlier, ⟨left, spent, underway⟩ | ⟨idle, last, before, within, ended⟩⟩ := ih
    · obtain ⟨high, more, here, positive, next⟩ := underway.cycle straight (lines n)
      refine ⟨high, ?_, ?_⟩
      · intro i past other address dispatches
        rcases Nat.lt_succ_iff_lt_or_eq.mp past with before | rfl
        · obtain ⟨same, below⟩ := earlier i before other address dispatches
          exact ⟨same, Nat.lt_of_lt_of_le below more⟩
        · obtain ⟨same, -, below⟩ := here other address dispatches
          exact ⟨same, below⟩
      · rcases next with ⟨idle, ended⟩ | underway
        · exact .inr ⟨idle, n, Nat.lt_succ_self n, by omega, ended⟩
        · exact .inl ⟨left - 1, by omega, underway⟩
    · refine ⟨low, ?_, .inr ⟨?_, last, Nat.lt_succ_of_lt before, within, ended⟩⟩
      · intro i past other address dispatches
        rcases Nat.lt_succ_iff_lt_or_eq.mp past with before | rfl
        · exact earlier i before other address dispatches
        · exact absurd dispatches (idle.dispatches_nothing address)
      · have same : run (n + 1) = run n := by
          simp only [run, answered]
          rw [idle.execute, enter_unasked idle.noRequest]
        rw [same]
        exact idle

/-- Code without loops, definitions and attached programs, none of whose words is a function, runs
every operation at most once, in the order of the addresses, and ends. A cycle for every operation
and one more are enough for it, so that none is needed for the branches. -/
theorem straight_code_ends (straight : program.Straight)
    (callless : program.Callless m.store.functions) (lines : Nat → String) :
    let run := (m.direct program).answered lines
    (∀ i other address, (run i).Dispatches other address → other = program) ∧
      (∀ i j first second, i < j → (run i).Dispatches program first →
        (run j).Dispatches program second → first < second) ∧
      ∃ last, last + 1 ≤ program.size + program.branches + 1 ∧
        ((run last).execute 1).2.ends := by
  intro run
  have turns := answered_underway straight callless lines
  refine ⟨?_, ?_, ?_⟩
  · intro i other address dispatches
    obtain ⟨low, earlier, -⟩ := turns (i + 1)
    exact (earlier i (Nat.lt_succ_self i) other address dispatches).1
  · intro i j first second before one two
    obtain ⟨low, earlier, ⟨left, -, underway⟩ | ⟨idle, -⟩⟩ := turns j
    · obtain ⟨high, -, here, -⟩ := underway.cycle straight (lines j)
      have past := (earlier i before program first one).2
      have next := (here program second two).2.1
      exact Nat.lt_of_lt_of_le past next
    · exact absurd two (idle.dispatches_nothing second)
  · obtain ⟨low, -, ⟨left, spent, underway⟩ | ⟨-, last, -, within, ended⟩⟩ :=
      turns (program.size + 1)
    · obtain ⟨high, -, -, positive, -⟩ := underway.cycle straight (lines 0)
      omega
    -- `last ≤ program.size` leaves the cycles for the branches over
    · exact ⟨last, by omega, ended⟩

/-- An `if` with a line of input, beside a function that it does not call. -/
theorem straight_code_ends_input :
    let m := ((({} : Machine).direct (.ofText "t" "func f 3 end")).execute 9).1
    let program := Program.ofText "t" "var x 1 if input else 2 end x @ x write"
    let run := (m.direct program).answered fun _ => "line"
    (m.store.functions["f"]?.isSome ∧ program.Straight ∧ program.Callless m.store.functions) ∧
      (∀ i j first second, i < j → (run i).Dispatches program first →
        (run j).Dispatches program second → first < second) ∧
      (∃ last, last + 1 ≤ 14 ∧ ((run last).execute 1).2.ends) ∧
      ((run 8).execute 1).2 = .print "line" := by
  intro m program run
  have defined : m.store.functions["f"]?.isSome := by decide +kernel
  have straight : program.Straight := by
    unfold Program.Straight
    decide +kernel
  have callless : program.Callless m.store.functions := by
    unfold Program.Callless
    decide +kernel
  have bound : program.size + program.branches + 1 = 14 := by decide +kernel
  obtain ⟨-, ordered, last, within, ended⟩ :=
    straight_code_ends straight callless fun _ => "line"
  rw [bound] at within
  refine ⟨⟨defined, straight, callless⟩, ordered, ⟨last, within, ended⟩, ?_⟩
  decide +kernel

end Machine
end StackScript
