import StackScript.Proofs.Lifecycle

/-!
Values that lie beneath those of a run do not show. An operation takes values from the top and puts
values there; how many there are it can tell only by failing for want of them, and a loop by finding
none at all. Until that happens a run is the same with more values beneath, which stay where they are.
-/
namespace StackScript

def Stack.above {α : Type} (base : List α) (s : Stack α) : Stack α :=
  .ofList (s.items ++ base)

def Store.above (base : List Value) (store : Store) : Store :=
  { store with values := store.values.above base }

def Machine.above (base : List Value) (m : Machine) : Machine :=
  { m with store := m.store.above base }

def Session.above (base : List Value) (s : Session) : Session :=
  { s with
    machine := s.machine.above base
    log := s.log.map fun (event, m) => (event, m.above base) }

section Machines

variable (base : List Value) (m : Machine)

@[simp] theorem Machine.request_above : (m.above base).request = m.request := rfl

@[simp] theorem Machine.fault_above : (m.above base).fault = m.fault := rfl

@[simp] theorem Machine.interrupted_above : (m.above base).interrupted = m.interrupted := rfl

@[simp] theorem Machine.isRunning_above : (m.above base).isRunning = m.isRunning := rfl

end Machines

def Fault.Kind.isShallow : Fault.Kind → Bool
  | .stackUnderflow | .indexOutOfRange => true
  | _ => false

namespace Stack

variable {α : Type} {s : Stack α} {a : α}

theorem push_above (base : List α) (a : α) (s : Stack α) :
    (s.above base).push a = (s.push a).above base :=
  eq_of_items rfl

theorem top_above (base : List α) (top : s.top? = some a) :
    (s.above base).top? = some a ∧ (s.above base).drop = s.drop.above base := by
  obtain ⟨rest, rfl⟩ := top_eq_some top
  exact ⟨rfl, eq_of_items rfl⟩

end Stack

/-- A loop can tell an empty stack from any other. -/
theorem Store.wantsLoop_above (base : List Value) {store : Store} (filled : store.values.items ≠ []) :
    (store.above base).wantsLoop = store.wantsLoop := by
  obtain ⟨⟨_ | ⟨value, rest⟩, size, size_eq⟩, scopes, functions⟩ := store
  · exact absurd rfl filled
  · rfl

namespace Change

variable {α β : Type} {base : List Value}

theorem get_bind (next : Store → Change α) (store : Store) :
    (get >>= next) store = next store store := rfl

/-- What becomes of the outcome of a change when `base` lies beneath. Nothing is said if it failed for
want of values. -/
inductive Lifts (base : List Value) :
    EStateM.Result Fault Store α → EStateM.Result Fault Store α → Prop where
  | works (a : α) (store : Store) : Lifts base (.ok a store) (.ok a (store.above base))
  | fails (fault : Fault) (store : Store) :
      Lifts base (.error fault store) (.error fault (store.above base))
  | digs {fault : Fault} {store : Store} (shallow : fault.kind.isShallow)
      (other : EStateM.Result Fault Store α) : Lifts base (.error fault store) other

def Local (change : Change α) : Prop :=
  ∀ base store, Lifts base (change store) (change (store.above base))

namespace Local

theorem pure (a : α) : Local (Pure.pure a) :=
  fun _ store => .works a store

theorem throw (fault : Fault) : Local (α := α) (MonadExcept.throw fault) :=
  fun _ store => .fails fault store

theorem bind {first : Change α} {next : α → Change β} (start : Local first)
    (later : ∀ a, Local (next a)) : Local (first >>= next) := by
  intro base store
  rw [bind_eq, bind_eq]
  have lifts := start base store
  generalize first store = result, first (store.above base) = outcome at lifts
  cases lifts with
  | works a after => exact later a base after
  | fails fault after => exact .fails fault after
  | digs shallow => exact .digs shallow _

theorem get {next : Store → Change α} (blind : ∀ base store, next (store.above base) = next store)
    (later : ∀ store, Local (next store)) : Local (get >>= next) := by
  intro base store
  rw [get_bind, get_bind, blind]
  exact later store base store

theorem require (result : Except Fault α) : Local (Change.require result) := by
  cases result with
  | ok a => exact pure a
  | error fault => exact throw fault

theorem modify {f : Store → Store} (blind : ∀ base store, f (store.above base) = (f store).above base) :
    Local (modify f) := by
  intro base store
  have lifts := @Lifts.works Unit base () (f store)
  rw [← blind] at lifts
  exact lifts

theorem push (value : Value) : Local (Change.push value) :=
  modify fun base store => by
    unfold Store.above
    rw [Stack.push_above]

theorem onScopes (f : Scopes → Scopes) : Local (Change.onScopes f) :=
  modify fun _ _ => rfl

theorem top : Local Change.top := by
  intro base store
  rw [top_eq, top_eq]
  cases top : store.values.top? with
  | none => exact .digs rfl _
  | some value =>
    have tops := (Stack.top_above base top).1
    simp only [Store.above, tops]
    exact .works value store

theorem pop : Local Change.pop := by
  intro base store
  rw [pop_eq, pop_eq]
  cases top : store.values.top? with
  | none => exact .digs rfl _
  | some value =>
    obtain ⟨tops, rest⟩ := Stack.top_above base top
    simp only [Store.above, tops, rest]
    exact .works value { store with values := store.values.drop }

theorem popPair : Local (Change.onValues Stack.popPair) := by
  intro base store
  rw [Op.popPair_eq, Op.popPair_eq]
  cases top : store.values.top? with
  | none => exact .digs rfl _
  | some second =>
    obtain ⟨tops, rest⟩ := Stack.top_above base top
    simp only [Store.above, tops, rest]
    cases next : store.values.drop.top? with
    | none => exact .digs rfl _
    | some first =>
      obtain ⟨tops, rest⟩ := Stack.top_above base next
      simp only [tops, rest]
      exact .works (first, second) { store with values := store.values.drop.drop }

theorem roll : Local (Change.onValues Stack.roll) := by
  intro base store
  obtain ⟨⟨items, size, rfl⟩, scopes, functions⟩ := store
  match items with
  | [] => exact .digs rfl _
  | [value] => exact .digs rfl _
  | first :: second :: rest =>
    exact .works () ⟨.ofList (second :: first :: rest), scopes, functions⟩

end Local
end Change

namespace Op

open Change

variable (site : Site)

theorem branch_local : Local (performBranch site) := by
  unfold performBranch
  apply Local.pop.bind
  intro value
  apply (Local.require _).bind
  intro condition
  apply (Local.require _).bind
  intro block
  dsimp only
  cases (if condition = true then some block.body else block.alternative) with
  | none => exact .pure _
  | some span => exact .pure _

theorem define_local : Local (performDefine site) := by
  unfold performDefine
  cases site.operand? with
  | none => exact .throw _
  | some operand =>
    cases operand with
    | functionName name =>
      apply (Local.require _).bind
      intro block
      apply (Local.modify fun _ _ => rfl).bind
      intro _
      exact .pure _
    | _ => exact .throw _

theorem declare_local : Local (performDeclare site) := by
  unfold performDeclare
  cases site.operand? with
  | none => exact .throw _
  | some operand =>
    cases operand with
    | variableName name =>
      apply (Local.onScopes _).bind
      intro _
      exact .pure _
    | _ => exact .throw _

theorem opens_local (next : Nat → Change Control) (later : ∀ scope, Local (next scope)) :
    Local (do
      Change.onScopes fun scopes => scopes.enter site.scope
      next (← get).scopes.newest) := by
  apply (Local.onScopes _).bind
  intro _
  exact .get (fun _ _ => rfl) fun store => later store.scopes.newest

theorem word_local (name : String) : Local (performWord site name) := by
  unfold performWord
  refine .get (fun _ _ => rfl) fun store => ?_
  cases store.functions[name]? with
  | some body =>
    exact opens_local site
      (fun scope => return .enter (site.address + 1) (.start .call body.program body.span scope))
      fun _ => .pure _
  | none =>
    dsimp only
    split
    · exact (Local.push _).bind fun _ => .pure _
    · refine .get (fun _ _ => rfl) fun store => ?_
      cases store.scopes.get? site.scope name with
      | some value => exact (Local.push _).bind fun _ => .pure _
      | none => exact .throw _

/-- Every operation is blind to what lies beneath, but for a loop that finds no value. -/
theorem perform_local {op : Op} (other : op ≠ .loop) : Local (op.perform site) := by
  cases op with
  | loop => exact absurd rfl other
  | branch => exact branch_local site
  | define => exact define_local site
  | declare => exact declare_local site
  | word name => exact word_local site name
  | push value => exact (Local.push value).bind fun _ => .pure _
  | input | otherwise | close | functionName | variableName => exact .pure _
  | dup =>
    apply Local.top.bind
    intro value
    apply (Local.require _).bind
    intro n
    exact (Local.push _).bind fun _ => .pure _
  | pop => exact Local.pop.bind fun _ => .pure _
  | roll => exact Local.roll.bind fun _ => .pure _
  | apply operator =>
    apply Local.popPair.bind
    intro (lhs, rhs)
    apply (Local.require _).bind
    intro result
    exact (Local.push _).bind fun _ => .pure _
  | not =>
    apply Local.pop.bind
    intro value
    apply (Local.require _).bind
    intro result
    exact (Local.push _).bind fun _ => .pure _
  | dump =>
    apply Local.pop.bind
    intro value
    exact (Local.require _).bind fun _ => .pure _
  | write => exact Local.pop.bind fun _ => .pure _
  | attach => exact Local.pop.bind fun _ => .pure _
  | assign =>
    apply Local.pop.bind
    intro name
    apply Local.pop.bind
    intro value
    exact (Local.onScopes _).bind fun _ => .pure _

theorem loop_lifts (base : List Value) {store : Store}
    (filled : ∀ block, Block.find site.program site.address site.limit false = .ok block →
      store.values.items ≠ []) :
    Lifts base (performLoop site store) (performLoop site (store.above base)) := by
  unfold performLoop Site.block
  rw [bind_eq, bind_eq]
  cases found : Block.find site.program site.address site.limit false with
  | error fault => exact .fails fault store
  | ok block =>
    simp only [Change.require, pure_eq]
    rw [get_bind, get_bind, store.wantsLoop_above base (filled block found)]
    apply (Local.require _).bind
    intro wanted
    cases wanted with
    | false => exact .pure _
    | true =>
      exact opens_local site
        (fun scope => return .enter (block.close + 1) (site.frame .loop block.body scope))
        fun _ => .pure _

end Op

def Event.isShallow : Event → Bool
  | .failed fault => fault.kind.isShallow
  | _ => false

namespace Machine

/-- Whether the next step looks for a value to see if a loop goes on: at its beginning, if it has an
end, or at the end of its body. -/
def testsLoop (m : Machine) : Bool :=
  match m.frames.top? with
  | none => false
  | some frame =>
    if frame.next < frame.span.stop then
      !frame.kind.isTopLevel && frame.program.op? frame.next == some .loop &&
        (Block.find frame.program frame.next frame.span.stop false).isOk
    else frame.kind == .loop

/-- Whether the next step can tell that there are no more values: it fails for want of them, or tests
the condition of a loop without any. -/
def digs (m : Machine) : Bool :=
  m.step.2.any Event.isShallow || m.testsLoop && m.store.values.isEmpty

variable {m : Machine}

theorem begin_above (base : List Value) (m : Machine) (place : Option Location) (frame : Frame) :
    (m.above base).begin place frame = Prod.map (above base) id (m.begin place frame) := by
  have same : m.frames = .ofList m.frames.items := Stack.eq_of_items rfl
  rw [begin_eq (m.above base) place frame _ same, begin_eq m place frame _ same]
  split <;> rfl

theorem perform_above (base : List Value) (frame : Frame) {op : Op}
    (enough : (m.perform frame op).2.any Event.isShallow = false)
    (filled : op = .loop → ∀ block,
      Block.find frame.program frame.next frame.span.stop false = .ok block →
      m.store.values.items ≠ []) :
    (m.above base).perform frame op = Prod.map (above base) id (m.perform frame op) := by
  have lifts : Change.Lifts base (op.perform (siteOf frame) m.store)
      (op.perform (siteOf frame) (m.store.above base)) := by
    by_cases loop : op = .loop
    · subst loop
      exact Op.loop_lifts (siteOf frame) base (filled rfl)
    · exact Op.perform_local (siteOf frame) loop base m.store
  unfold perform at enough ⊢
  simp only [siteOf] at lifts
  simp only [above]
  generalize op.perform _ m.store = result, op.perform _ (m.store.above base) = outcome
    at lifts enough
  cases lifts with
  | fails fault store => rfl
  | digs shallow other => cases shallow.symm.trans enough
  | works control store =>
    cases control with
    | proceed | jump | print | ask => rfl
    | enter resume inner =>
      exact begin_above base
        { m with store, frames := m.frames.modifyTop (·.resumeAt resume) }
        (frame.program.location? frame.next) inner

theorem leave_above (base : List Value) {frame : Frame} (plain : frame.kind ≠ .entry) :
    (m.above base).leave frame = Prod.map (above base) id (m.leave frame) := by
  simp only [leave, successor?, if_neg plain]
  rfl

theorem finish_above (base : List Value) {frame : Frame} (plain : frame.kind ≠ .entry)
    (filled : frame.kind = .loop → m.store.values.items ≠ []) :
    (m.above base).finish frame = Prod.map (above base) id (m.finish frame) := by
  unfold finish
  by_cases loop : frame.kind = .loop
  · have same : (m.above base).store.wantsLoop = m.store.wantsLoop :=
      m.store.wantsLoop_above base (filled loop)
    simp only [loop, same, ↓reduceIte]
    rcases m.store.wantsLoop with fault | _ | _
    · rfl
    · exact leave_above base plain
    · rfl
  · simp only [loop, ↓reduceIte]
    exact leave_above base plain

theorem advance_above (base : List Value) {frame : Frame}
    (enough : (m.advance frame).2.any Event.isShallow = false)
    (filled : frame.kind.isTopLevel = false → frame.program.op? frame.next = some .loop →
      ∀ block, Block.find frame.program frame.next frame.span.stop false = .ok block →
      m.store.values.items ≠ []) :
    (m.above base).advance frame = Prod.map (above base) id (m.advance frame) := by
  unfold advance at enough ⊢
  cases here : frame.program.op? frame.next with
  | none => rfl
  | some op =>
    rw [here] at enough filled
    dsimp only at enough ⊢
    cases skipped : frame.kind.isTopLevel && !op.isTopLevel with
    | true => rfl
    | false =>
      rw [skipped] at enough
      refine perform_above base frame enough ?_
      rintro rfl
      refine filled ?_ rfl
      simpa [Op.isTopLevel] using skipped

def Plain (m : Machine) : Prop :=
  ∀ frame ∈ m.frames.items, frame.kind ≠ .entry

theorem step_above (base : List Value) (enough : m.digs = false) (plain : m.Plain) :
    (m.above base).step = Prod.map (above base) id m.step := by
  obtain ⟨quiet, tests⟩ := Bool.or_eq_false_iff.mp enough
  have same : (m.above base).frames.top? = m.frames.top? := rfl
  have filled : m.testsLoop = true → m.store.values.items ≠ [] := by
    intro testing none
    rw [testing, (Stack.isEmpty_iff _).mpr none] at tests
    cases tests
  unfold testsLoop at filled
  unfold step at quiet ⊢
  rw [same]
  cases top : m.frames.top? with
  | none => rfl
  | some frame =>
    rw [top] at quiet filled
    dsimp only at quiet filled ⊢
    by_cases inside : frame.next < frame.span.stop
    · simp only [inside, ↓reduceIte] at quiet filled ⊢
      refine advance_above base quiet ?_
      intro inner here block found
      apply filled
      simp [inner, here, found, Except.isOk, Except.toBool]
    · simp only [inside, ↓reduceIte] at quiet filled ⊢
      obtain ⟨below, frames⟩ := Stack.top_eq_some top
      refine finish_above base (plain frame ?_) ?_
      · simp [frames]
      · intro loop
        exact filled (by simp [loop])

namespace Plain

theorem idle (noFrames : m.frames.items = []) : m.Plain := by
  unfold Plain
  rw [noFrames]
  simp

theorem direct (m : Machine) (program : Program) : (m.direct program).Plain := by
  intro frame member
  cases List.mem_singleton.mp member
  simp [Frame.start]

theorem moves {after : Machine} {frame : Frame} {below : List Frame} {event : Option Event}
    (moved : m.Moves frame below after event) (top : frame.kind ≠ .entry)
    (lower : ∀ caller ∈ below, caller.kind ≠ .entry) : after.Plain := by
  have resumed : ∀ next, ∀ caller ∈ frame.resumeAt next :: below, caller.kind ≠ .entry := by
    intro next
    exact List.forall_mem_cons.mpr ⟨top, lower⟩
  cases moved with
  | misses | fails | overflows | doubts | chokes => exact idle rfl
  | passes | works | repeats => exact resumed _
  | enters op resume inner store inside here due performed =>
    exact List.forall_mem_cons.mpr ⟨Op.enters_plain performed, resumed _⟩
  | closes => exact lower
  | starts body outside entry => exact absurd entry top

theorem step (plain : m.Plain) : m.step.1.Plain := by
  cases top : m.frames.top? with
  | none => simpa only [Machine.step, top] using plain
  | some frame =>
    obtain ⟨below, frames⟩ := Stack.top_eq_some top
    unfold Plain at plain
    rw [frames] at plain
    obtain ⟨first, lower⟩ := List.forall_mem_cons.mp plain
    exact moves (step_moves frames) first lower

theorem execute (plain : m.Plain) : (m.execute 1).1.Plain := by
  by_cases ready : m.Ready
  · rw [execute_ready ready, run_one]
    exact plain.step
  · rw [(execute_waiting ready 1).1]
    unfold Machine.execute
    split
    · exact plain
    · exact plain
    · split
      · exact idle rfl
      · split <;> exact plain

theorem receive {after : Machine} {answer : Answer} (plain : m.Plain)
    (received : m.receive? answer = some after) : after.Plain := by
  unfold receive? at received
  split at received
  · rename_i asked
    cases received
    simp only [Machine.enter, asked]
    exact plain
  · rename_i asked
    cases received
    rw [attach_eq asked _ m.frames.items (Stack.eq_of_items rfl)]
    split
    · exact idle rfl
    · exact List.forall_mem_cons.mpr ⟨by simp [Frame.start], plain⟩
  · cases received
    exact idle rfl
  · cases received

end Plain

theorem execute_above (base : List Value) (enough : m.Ready → m.digs = false) (plain : m.Plain) :
    (m.above base).execute 1 = Prod.map (above base) id (m.execute 1) := by
  by_cases ready : m.Ready
  · have also : (m.above base).Ready :=
      ⟨ready.noFault, ready.noRequest, ready.running, ready.undisturbed⟩
    rw [execute_ready ready, execute_ready also, run_one, run_one,
      step_above base (enough ready) plain]
    rfl
  · have waiting : ¬(m.above base).Ready := fun also =>
      ready ⟨also.noFault, also.noRequest, also.running, also.undisturbed⟩
    rw [(execute_waiting ready 1).1, (execute_waiting waiting 1).1]
    unfold execute
    rw [fault_above, request_above, isRunning_above, interrupted_above]
    split
    · rfl
    · rfl
    · cases alert : m.isRunning && m.interrupted with
      | true =>
        simp only [↓reduceIte]
        rfl
      | false =>
        simp only [Bool.false_eq_true, ↓reduceIte]
        split <;> rfl

theorem attach_above (base : List Value) {path : String} (asked : m.request = some (.program path))
    (program : Program) : (m.above base).attach program = (m.attach program).above base := by
  have same : m.frames = .ofList m.frames.items := Stack.eq_of_items rfl
  have also : (m.above base).request = some (.program path) := asked
  rw [attach_eq asked program _ same, attach_eq also program _ same]
  split <;> rfl

theorem enter_above (base : List Value) (asked : m.request = some .line) (line : String) :
    (m.above base).enter line = (m.enter line).above base := by
  simp only [enter, asked, above, Store.above, Stack.push_above]

theorem receive_above (base : List Value) (m : Machine) (answer : Answer) :
    (m.above base).receive? answer = (m.receive? answer).map (above base) := by
  unfold receive?
  simp only [request_above]
  split
  · exact congrArg some (enter_above base ‹_› _)
  · exact congrArg some (attach_above base ‹_› _)
  · rfl
  · rfl

end Machine

namespace Session

variable {s : Session}

theorem reply_above (base : List Value) (s : Session) : (s.above base).reply = s.reply.above base := by
  have same : (s.above base).answers = s.answers := rfl
  have machine : (s.above base).machine = s.machine.above base := rfl
  unfold reply
  rw [same, machine]
  cases s.answers with
  | nil => rfl
  | cons answer answers =>
    dsimp only
    rw [Machine.receive_above]
    cases s.machine.receive? answer <;> rfl

theorem record_above (base : List Value) (s : Session) (event : Event) (m : Machine) :
    (s.above base).record event (m.above base) = (s.record event m).above base := by
  simp [record, above]

theorem turn_above (base : List Value) (enough : s.machine.Ready → s.machine.digs = false)
    (plain : s.machine.Plain) : (s.above base).turn 1 = (s.turn 1).above base := by
  have executed := Machine.execute_above base enough plain
  have machine : (s.above base).machine = s.machine.above base := rfl
  unfold turn
  rw [machine, executed]
  rcases s.machine.execute 1 with ⟨after, event⟩
  have recorded := record_above base s event after
  cases event with
  | running => rfl
  | ask request =>
    dsimp only [Prod.map, id]
    rw [recorded, reply_above]
  | stopped | print | failed => exact recorded

theorem cycles_above (base : List Value) (n : Nat) (plain : s.machine.Plain)
    (enough : ∀ k < n, (s.cycles k).machine.Ready → (s.cycles k).machine.digs = false) :
    (s.above base).cycles n = (s.cycles n).above base := by
  induction n generalizing s with
  | zero => rfl
  | succ n ih =>
    have first := turn_above base (enough 0 (Nat.succ_pos n)) plain
    have next := turn_keeps 1 Machine.Plain.execute Machine.Plain.receive plain
    rw [cycles, cycles, ← ih next]
    · exact congrArg (cycles n) first
    · intro k less
      exact enough (k + 1) (Nat.succ_lt_succ less)

end Session

/-- A run of statements does the same on more values, as long as it does not come to the end of those
it has: cycle by cycle it reports the same, and its values lie on the others. -/
theorem Machine.values_beneath_do_not_show (m : Machine) (program : Program) (base : List Value)
    (answers : List Answer) (n : Nat)
    (enough : ∀ k < n, let now := (Session.cycles k ⟨m.direct program, answers, []⟩).machine
      now.Ready → now.digs = false) :
    Session.cycles n ⟨(m.above base).direct program, answers, []⟩ =
      (Session.cycles n ⟨m.direct program, answers, []⟩).above base :=
  Session.cycles_above base n (.direct m program) enough

/-- A call, a loop and a line of input, with one value to work on and one beneath. -/
theorem Machine.values_beneath_do_not_show_loop :
    let m : Machine := { store := { values := .ofList [.string "5"] } }
    let program := Program.ofText "t" "func f dup write end f while pop input write 0 end"
    let run := fun k => Session.cycles k ⟨m.direct program, [.line "hi"], []⟩
    let other := Session.cycles 12 ⟨(m.above [.string "7"]).direct program, [.line "hi"], []⟩
    (∀ k < 12, (run k).machine.Ready → (run k).machine.digs = false) ∧
      other = (run 12).above [.string "7"] ∧
      other.log.map Prod.fst = [.print "5.0", .ask .line, .print "hi", .stopped] := by
  intro m program run other
  have deep : ∀ k < 12, (run k).machine.digs = false := by decide +kernel
  have same := values_beneath_do_not_show m program [.string "7"] [.line "hi"] 12 fun k less _ =>
    deep k less
  have shown : other.log.map Prod.fst = [.print "5.0", .ask .line, .print "hi", .stopped] := by
    decide +kernel
  exact ⟨fun k less _ => deep k less, same, shown⟩

end StackScript
