import StackScript.Proofs.Requests

/-!
What a host does for a run. Every operation that writes, reads or attaches has the host act exactly
once, and the host never acts for anything else; so the order of its actions is the order in which
these operations are carried out.
-/
namespace StackScript

inductive Deed where
  | write (text : String)
  | read (prompt : String)
  | fetch (path : String)
  deriving DecidableEq

inductive Action where
  | write (text : String) (result : Except Fault Unit)
  | read (prompt : String) (result : Except Fault String)
  | fetch (path : String) (result : Except Fault (List String))

def Action.deed : Action → Deed
  | .write text _ => .write text
  | .read prompt _ => .read prompt
  | .fetch path _ => .fetch path

/-- What an operation that finds `values` on the stack calls for. -/
def Op.deed? (values : List Value) : Op → Option Deed
  | .write => values.head?.map fun value => .write value.text
  | .dump => (values.head?.bind (·.toNumber.toOption)).map fun n => .write (printNumber n)
  | .input => some (.read Host.prompt)
  | .attach => values.head?.map fun path => .fetch path.text
  | _ => none

def Event.deed? : Event → Option Deed
  | .print text => some (.write text)
  | .ask .line => some (.read Host.prompt)
  | .ask (.program path) => some (.fetch path)
  | .stopped | .running | .failed _ => none

def Event.request? : Event → Option Request
  | .ask request => some request
  | .stopped | .running | .print _ | .failed _ => none

namespace Change

def Silent (change : Change Control) : Prop :=
  ∀ store control after, change store = .ok control after → control.event? = none

theorem Silent.pure {control : Control} (silent : control.event? = none) :
    Silent (Pure.pure control) := by
  intro store control after done
  cases done
  exact silent

theorem Silent.throw (fault : Fault) : Silent (MonadExcept.throw fault) := by
  intro store control after done
  cases done

theorem Silent.bind {α : Type} {change : Change α} {next : α → Change Control}
    (silent : ∀ a, Silent (next a)) : Silent (change >>= next) := by
  intro store control after done
  rw [bind_eq] at done
  cases first : change store with
  | ok a store =>
    rw [first] at done
    exact silent a store control after done
  | error fault store =>
    rw [first] at done
    cases done

end Change

def Change.deed? : EStateM.Result Fault Store Control → Option Deed
  | .ok control _ => control.event?.bind Event.deed?
  | .error _ _ => none

namespace Op

def acts : Op → Bool
  | .write | .dump | .input | .attach => true
  | _ => false

theorem perform_silent {op : Op} (quiet : op.acts = false) (site : Site) :
    Change.Silent (op.perform site) := by
  cases op with
  | write | dump | input | attach => cases quiet
  | push | dup | pop | roll | not | apply | assign =>
    repeat' refine .bind fun _ => ?_
    exact .pure rfl
  | otherwise | close | functionName | variableName => exact .pure rfl
  | branch =>
    refine .bind fun value => .bind fun condition => .bind fun block => ?_
    dsimp only
    split <;> exact .pure rfl
  | loop =>
    refine .bind fun block => .bind fun store => .bind fun wanted => ?_
    split
    · exact .bind fun _ => .bind fun _ => .pure rfl
    · exact .pure rfl
  | define =>
    change Change.Silent (performDefine site)
    unfold performDefine
    split
    · exact .bind fun block => .bind fun _ => .pure rfl
    · exact .throw _
  | declare =>
    change Change.Silent (performDeclare site)
    unfold performDeclare
    split
    · exact .bind fun _ => .pure rfl
    · exact .throw _
  | word name =>
    refine .bind fun store => ?_
    split
    · exact .bind fun _ => .bind fun _ => .pure rfl
    · split
      · exact .bind fun _ => .pure rfl
      · refine .bind fun store => ?_
        split
        · exact .bind fun _ => .pure rfl
        · exact .throw _

/-- An operation calls for what its event calls for. -/
theorem deed_of_perform (op : Op) (site : Site) (store : Store) :
    op.deed? store.values.items = Change.deed? (op.perform site store) := by
  cases quiet : op.acts with
  | false =>
    have none : op.deed? store.values.items = none := by
      cases op <;> first | rfl | cases quiet
    rw [none]
    cases performed : op.perform site store with
    | ok control after =>
      rw [Change.deed?, perform_silent quiet site _ _ _ performed, Option.bind_none]
    | error => rfl
  | true =>
    have top : store.values.top? = store.values.items.head? := rfl
    cases op with
    | input => rfl
    | write | attach =>
      simp only [perform, deed?, Change.bind_eq, Change.pop_eq, top]
      cases store.values.items.head? <;> rfl
    | dump =>
      simp only [perform, deed?, Change.bind_eq, Change.pop_eq, Change.require_eq, top]
      cases store.values.items.head? with
      | none => rfl
      | some value =>
        simp only [Option.bind_some]
        cases value.toNumber <;> rfl
    | _ => cases quiet

end Op

namespace Machine

def due? (m : Machine) : Option (Op × List Value) := do
  let frame ← m.frames.top?
  let op ← if frame.next < frame.span.stop then frame.program.op? frame.next else none
  if frame.kind.isTopLevel && !op.isTopLevel then none else some (op, m.store.values.items)

inductive Served (after : Machine) : Option Event → List Action → Machine → Prop where
  | passed : Served after none [] after
  | stopped : Served after (some .stopped) [] after
  | failed (fault : Fault) : Served after (some (.failed fault)) [] after
  | wrote (text : String) (result : Except Fault Unit) :
      Served after (some (.print text)) [.write text result] after
  | entered (line : String) :
      Served after (some (.ask .line)) [.read Host.prompt (.ok line)]
        { after with
          store := { after.store with values := after.store.values.push (.string line) }
          request := none }
  | unread (fault : Fault) :
      Served after (some (.ask .line)) [.read Host.prompt (.error fault)] (after.fail fault)
  | attached (path : String) (lines : List String) :
      Served after (some (.ask (.program path))) [.fetch path (.ok lines)]
        (after.attach (.ofLines path lines))
  | unfetched (path : String) (fault : Fault) :
      Served after (some (.ask (.program path))) [.fetch path (.error fault)] (after.fail fault)

/-- The course of a run from `m` in the hands of a host: what the host has done, the operations that
were carried out, each with the values it found, and the machine that is left. -/
inductive Course (m : Machine) : List Action → List (Op × List Value) → Machine → Prop where
  | begins : Course m [] [] m
  | alarmed {log : List Action} {ops : List (Op × List Value)} {t : Machine}
      (before : Course m log ops t) : Course m log ops t.interrupt
  | idles {log : List Action} {ops : List (Op × List Value)} {t : Machine}
      (before : Course m log ops t) (waiting : ¬t.Ready) (noRequest : t.request = none) :
      Course m log ops (t.execute 1).1
  | cycles {log actions : List Action} {ops : List (Op × List Value)} {t after next : Machine}
      {event : Option Event} (before : Course m log ops t) (ready : t.Ready)
      (stepped : t.step = (after, event)) (served : Served after event actions next) :
      Course m (log ++ actions) (ops ++ t.due?.toList) next

variable {m t after next : Machine} {frame : Frame} {below : List Frame} {event : Option Event}
  {log actions : List Action} {ops : List (Op × List Value)}

theorem due_eq (frames : m.frames = .ofList (frame :: below)) (inside : frame.next < frame.span.stop)
    {op : Op} (here : frame.program.op? frame.next = some op)
    (due : (frame.kind.isTopLevel && !op.isTopLevel) = false) :
    m.due? = some (op, m.store.values.items) := by
  simp only [due?, frames, Stack.top_ofList, Option.bind_eq_bind, Option.bind_some, inside,
    ↓reduceIte, here, due, Bool.false_eq_true]

theorem due_outside (frames : m.frames = .ofList (frame :: below))
    (outside : frame.span.stop ≤ frame.next) : m.due? = none := by
  simp only [due?, frames, Stack.top_ofList, Option.bind_eq_bind, Option.bind_some,
    Nat.not_lt.mpr outside, ↓reduceIte, Option.bind_none]

theorem due_deed (frames : m.frames = .ofList (frame :: below)) (inside : frame.next < frame.span.stop)
    {op : Op} (here : frame.program.op? frame.next = some op)
    (due : (frame.kind.isTopLevel && !op.isTopLevel) = false)
    {done : EStateM.Result Fault Store Control} (performed : op.perform (siteOf frame) m.store = done) :
    (m.due?.bind fun (op, values) => op.deed? values) = Change.deed? done := by
  rw [due_eq frames inside here due, ← performed]
  exact op.deed_of_perform (siteOf frame) m.store

theorem moves_deed (moved : m.Moves frame below after event)
    (frames : m.frames = .ofList (frame :: below)) :
    (m.due?.bind fun (op, values) => op.deed? values) = event.bind Event.deed? := by
  cases moved with
  | passes op inside here skipped =>
    simp only [due?, frames, Stack.top_ofList, Option.bind_eq_bind, Option.bind_some, inside,
      ↓reduceIte, here, skipped, Option.bind_none]
  | misses inside missing =>
    simp only [due?, frames, Stack.top_ofList, Option.bind_eq_bind, Option.bind_some, inside,
      ↓reduceIte, missing, Option.bind_none]
    rfl
  | fails op fault store inside here due performed =>
    exact due_deed frames inside here due performed
  | works op store inside here due control within performed =>
    exact due_deed frames inside here due performed
  | enters op resume inner store inside here due performed
  | overflows op resume inner store inside here due performed =>
    exact due_deed frames inside here due performed
  | repeats outside | doubts _ outside | starts _ outside | chokes _ outside =>
    rw [due_outside frames outside]
    rfl
  | closes outside =>
    rw [due_outside frames outside]
    split <;> rfl

theorem served_deeds (served : Served after event actions next) :
    actions.map Action.deed = (event.bind Event.deed?).toList := by
  cases served <;> rfl

/-- The host has acted for exactly the operations that call for it, in their order. -/
theorem Course.deeds (course : m.Course log ops t) :
    log.map Action.deed = ops.filterMap fun (op, values) => op.deed? values := by
  induction course with
  | begins => rfl
  | alarmed before ih => exact ih
  | idles before waiting noRequest ih => exact ih
  | cycles before ready stepped served ih =>
    rename_i t after next event
    obtain ⟨frame, below, frames⟩ := frames_of_running ready.running
    have moved := step_moves frames
    rw [stepped] at moved
    rw [List.map_append, List.filterMap_append, ih, served_deeds served, ← moves_deed moved frames]
    cases t.due? with
    | none => rfl
    | some made =>
      simp only [Option.bind_some, Option.toList_some, List.filterMap_cons, List.filterMap_nil]
      cases made.1.deed? made.2 <;> rfl

theorem moves_request (moved : m.Moves frame below after event) (noRequest : m.request = none) :
    after.request = event.bind Event.request? := by
  cases moved with
  | works op store inside here due control => cases control <;> first | exact noRequest | rfl
  | passes | enters | repeats | starts => exact noRequest
  | misses | fails | overflows | doubts | chokes => rfl
  | closes =>
    refine noRequest.trans ?_
    split <;> rfl

theorem attach_answers {path : String} (asked : m.request = some (.program path))
    (program : Program) : (m.attach program).request = none := by
  rw [attach_eq asked program m.frames.items (Stack.eq_of_items rfl)]
  split <;> rfl

theorem served_request (served : Served after event actions next)
    (asked : after.request = event.bind Event.request?) : next.request = none := by
  cases served with
  | passed | stopped | failed | wrote => exact asked
  | entered | unread | unfetched => rfl
  | attached => exact attach_answers asked _

theorem execute_idle (waiting : ¬m.Ready) (noRequest : m.request = none) (cycles : Nat) :
    (m.execute cycles).2 = .stopped ∨ ∃ fault, (m.execute cycles).2 = .failed fault := by
  cases stored : m.fault with
  | some fault =>
    rw [execute_stored cycles stored]
    exact .inr ⟨fault, rfl⟩
  | none =>
    cases running : m.isRunning with
    | false =>
      simp only [execute, stored, noRequest, running]
      exact .inl rfl
    | true =>
      cases alert : m.interrupted with
      | true =>
        rw [execute_interrupted cycles stored noRequest running alert]
        exact .inr ⟨_, rfl⟩
      | false => exact absurd ⟨stored, noRequest, running, alert⟩ waiting

theorem Course.run (course : m.Course log ops t) (ready : t.Ready) (cycles : Nat) :
    ∃ ops last, m.Course log ops last ∧ last.Ready ∧
      (t.run cycles = (last, .running) ∨ last.step = ((t.run cycles).1, some (t.run cycles).2)) := by
  induction cycles generalizing t ops with
  | zero => exact ⟨ops, t, course, ready, .inl rfl⟩
  | succ cycles ih =>
    have quiet := (step_quiet ready).2
    rcases stepped : t.step with ⟨after, _ | event⟩
    · rw [stepped] at quiet
      have next := course.cycles ready stepped .passed
      rw [List.append_nil] at next
      rw [run_quiet stepped]
      exact ih next (quiet rfl)
    · rw [run_loud stepped]
      exact ⟨ops, t, course, ready, .inr stepped⟩

end Machine

namespace Host

variable {σ : Type} {console : Console (StateM σ)} {source : Source (StateM σ)}

def recorded (console : Console (StateM σ)) : Console (StateM (σ × List Action)) where
  write text := fun (world, log) =>
    let (result, world) := console.write text world
    (result, world, log ++ [.write text result])
  readLine prompt := fun (world, log) =>
    let (result, world) := console.readLine prompt world
    (result, world, log ++ [.read prompt result])
  interrupted := fun (world, log) =>
    let (alarm, world) := console.interrupted world
    (alarm, world, log)

def recordedSource (source : Source (StateM σ)) : Source (StateM (σ × List Action)) :=
  fun path (world, log) =>
    let (result, world) := source path world
    (result, world, log ++ [.fetch path result])

theorem serve_served {m : Machine} {event : Event}
    (asked : m.request = event.request?) (loud : event ≠ .running) (world : σ) (log : List Action) :
    ∃ actions, m.Served (some event) actions (serve console source m event world).1.1 ∧
      serve (recorded console) (recordedSource source) m event (world, log) =
        ((serve console source m event world).1, (serve console source m event world).2,
          log ++ actions) := by
  cases event with
  | running => exact absurd rfl loud
  | stopped => exact ⟨[], .stopped, by rw [List.append_nil]; rfl⟩
  | failed fault => exact ⟨[], .failed fault, by rw [List.append_nil]; rfl⟩
  | print text =>
    simp only [serve_print, recorded]
    rcases console.write text world with ⟨fault | ⟨⟩, world⟩
    · exact ⟨_, .wrote text (.error fault), rfl⟩
    · exact ⟨_, .wrote text (.ok ()), rfl⟩
  | ask request =>
    cases request with
    | line =>
      simp only [serve_line, recorded]
      rcases console.readLine prompt world with ⟨fault | line, world⟩
      · exact ⟨_, .unread fault, rfl⟩
      · refine ⟨_, ?_, rfl⟩
        dsimp only
        rw [Machine.enter_eq asked]
        exact .entered line
    | program path =>
      simp only [serve_program, recordedSource]
      rcases source path world with ⟨fault | lines, world⟩
      · exact ⟨_, .unfetched path fault, rfl⟩
      · exact ⟨_, .attached path lines, rfl⟩

section Courses

variable {m t : Machine} {log : List Action} {ops : List (Op × List Value)}

theorem polled_course (course : m.Course log ops t) (alarm : Bool) :
    m.Course log ops (polled t alarm) := by
  cases alarm with
  | false => exact course
  | true => exact course.alarmed

theorem polled_request (t : Machine) (alarm : Bool) : (polled t alarm).request = t.request := by
  cases alarm <;> rfl

variable (console source)

/-- A turn of a host is a part of the course, and all that the host does in it is on record. -/
theorem turn_course (course : m.Course log ops t) (noRequest : t.request = none) (cycles : Nat)
    (world : σ) :
    let plain := turn console source cycles t world
    ∃ record ops, m.Course record ops plain.1.1 ∧ (plain.1.2 = none → plain.1.1.request = none) ∧
      turn (recorded console) (recordedSource source) cycles t (world, log) =
        (plain.1, plain.2, record) := by
  intro plain
  have poll : (recorded console).interrupted (world, log) =
    ((console.interrupted world).1, (console.interrupted world).2, log) := rfl
  simp only [plain, turn_eq, poll]
  rcases console.interrupted world with ⟨alarm, world⟩
  have none := (polled_request t alarm).trans noRequest
  replace course := polled_course course alarm
  dsimp only
  generalize polled t alarm = t at none course
  by_cases ready : t.Ready
  · obtain ⟨ops, last, course, there, ended⟩ := course.run ready cycles
    rw [Machine.execute_ready ready]
    rcases ended with running | stepped
    · rw [running]
      exact ⟨log, ops, course, fun _ => there.noRequest, rfl⟩
    · obtain ⟨frame, below, frames⟩ := Machine.frames_of_running there.running
      have moved := Machine.step_moves frames
      have loud := (Machine.step_quiet there).1
      rw [stepped] at moved loud
      have asked := Machine.moves_request moved there.noRequest
      obtain ⟨actions, served, same⟩ := serve_served asked (fun running => loud (congrArg some running))
        world log
      exact ⟨_, _, course.cycles there stepped served,
        fun _ => Machine.served_request served asked, same⟩
  · have finished := Machine.execute_idle ready none cycles
    replace course := course.idles ready none
    rw [(Machine.execute_waiting ready 1).1, ← (Machine.execute_waiting ready cycles).1] at course
    rcases executed : t.execute cycles with ⟨after, event⟩
    rw [executed] at finished course
    rcases finished with rfl | ⟨fault, rfl⟩
    · exact ⟨log, ops, course, nofun, rfl⟩
    · exact ⟨log, ops, course, nofun, rfl⟩

theorem run_course (course : m.Course log ops t) (noRequest : t.request = none)
    (cycles turns : Nat) (world : σ) :
    let plain := run console source cycles turns t world
    ∃ record ops, m.Course record ops plain.1.1 ∧
      run (recorded console) (recordedSource source) cycles turns t (world, log) =
        (plain.1, plain.2, record) := by
  induction turns generalizing t world log ops with
  | zero => exact ⟨log, ops, course, rfl⟩
  | succ turns ih =>
    intro plain
    obtain ⟨record, ops, next, none, same⟩ :=
      turn_course console source course noRequest cycles world
    simp only [plain, run_succ, same]
    rcases turned : turn console source cycles t world with ⟨⟨after, _ | result⟩, world⟩
    · rw [turned] at next none
      exact ih next (none rfl) world
    · rw [turned] at next
      exact ⟨record, ops, next, rfl⟩

end Courses

end Host

namespace Machine

/-- A request waits for its answer, and gets it once. However often a run is executed, it asks the same
and stays as it is; a line goes on top of the values, and a program that is attached runs its top level
in the scope of the block that asked, which stands right behind the operation that did until the run
comes back to it. A host reads once for each `input` and fetches once for each `attach`, and all that
it does is in the order of the operations that call for it. -/
theorem requests_are_met_once {m : Machine} (reached : m.Reachable) :
    (∀ request, m.request = some request →
      (∀ budgets : List Nat, m.afterAll (budgets.map .execute) = m ∧
        m.reports (budgets.map .execute) = budgets.map fun _ => .ask request) ∧
      ∃ frame below address, m.frames = .ofList (frame :: below) ∧ frame.next = address + 1 ∧
        frame.program.op? address = some request.op ∧
        (request = .line → ∀ line, m.enter line =
          { m with
            store := { m.store with values := m.store.values.push (.string line) }
            request := none }) ∧
        ∀ path program, request = .program path → below.length + 1 < Stack.capacity →
          let harvest := Frame.start .attached program program.span frame.scope
          m.attach program =
            { m with request := none, frames := .ofList (harvest :: frame :: below) } ∧
          ∀ calls, (∀ call ∈ calls, call.starts = false) →
            let later := (m.attach program).afterAll calls
            later.Opened harvest (frame :: below) ∨
              ∃ back, (m.attach program).Leads back ∧ back.Leads later ∧ back.Left (frame :: below)) ∧
    (m.request = none → ∀ (σ : Type) (console : Console (StateM σ)) (source : Source (StateM σ))
      (cycles turns : Nat) (world : σ),
      let plain := Host.run console source cycles turns m world
      ∃ log ops,
        Host.run (Host.recorded console) (Host.recordedSource source) cycles turns m (world, []) =
          (plain.1, plain.2, log) ∧
        m.Course log ops plain.1.1 ∧
        log.map Action.deed = ops.filterMap fun (op, values) => op.deed? values) := by
  constructor
  · intro request asked
    have noFault := (lasting_asked.reachable reached request asked).1
    obtain ⟨frame, below, address, frames, behind, here⟩ := asking_block reached asked
    refine ⟨executions_ask noFault asked, frame, below, address, frames, behind, here, ?_, ?_⟩
    · rintro rfl line
      exact enter_eq asked line
    · rintro path program rfl room harvest
      have attached : m.attach program =
          { m with request := none, frames := .ofList (harvest :: frame :: below) } := by
        rw [attach_eq asked program _ frames]
        exact if_neg (Nat.not_le.mpr room)
      refine ⟨attached, ?_⟩
      intro calls same later
      have opened : (m.attach program).Opened harvest (frame :: below) := by
        rw [attached]
        exact ⟨[], harvest.next, rfl⟩
      exact leads_opened opened nofun (Leads.here.afterAll calls same)
  · intro noRequest σ console source cycles turns world plain
    obtain ⟨log, ops, course, same⟩ :=
      Host.run_course console source Course.begins noRequest cycles turns world
    exact ⟨log, ops, same, course, course.deeds⟩

/-- A program that attaches another, reads a line and writes it, by hand and in the hands of a host. -/
theorem requests_are_met_once_attached :
    let start := ({} : Machine).after (.direct (.ofText "t" "'lib' attach input write"))
    let asking := start.after (.execute 9)
    let program := Program.ofText "lib" "func f end"
    let harvest := Frame.start .attached program program.span 0
    let frame : Frame := ⟨.block, .ofText "t" "'lib' attach input write", ⟨0, 4⟩, 2, 0⟩
    let console : Console (StateM Unit) :=
      { write := fun _ => pure (.ok ())
        readLine := fun _ => pure (.ok "a")
        interrupted := pure false }
    let source : Source (StateM Unit) := fun _ => pure (.ok ["func f end"])
    asking.Reachable ∧ asking.request = some (.program "lib") ∧
      asking.afterAll [.execute 1, .execute 7] = asking ∧
      asking.attach program =
        { asking with request := none, frames := .ofList [harvest, frame] } ∧
      start.Reachable ∧ start.request = none ∧
      ∃ log ops, start.Course log ops (Host.run console source 5 9 start ()).1.1 ∧
        log.map Action.deed = [.fetch "lib", .read Host.prompt, .write "a"] ∧
        ops.filterMap (fun (op, values) => op.deed? values) =
          [.fetch "lib", .read Host.prompt, .write "a"] := by
  intro start asking program harvest frame console source
  have begun : start.Reachable := Reachable.initial.call (.direct _)
  have reached : asking.Reachable := begun.call (.execute 9)
  have asked : asking.request = some (.program "lib") := by decide +kernel
  have frames : asking.frames = .ofList [frame] := Stack.eq_of_items (by decide +kernel)
  obtain ⟨waits, block, below, address, same, -, -, -, attaches⟩ :=
    (requests_are_met_once reached).1 _ asked
  obtain ⟨rfl, rfl⟩ : block = frame ∧ below = [] := by
    have items := congrArg Stack.items (same.symm.trans frames)
    simpa using items
  have attached := (attaches "lib" program rfl (by decide)).1
  obtain ⟨log, ops, recorded, course, deeds⟩ :=
    (requests_are_met_once begun).2 rfl Unit console source 5 9 ()
  have made : log.map Action.deed = [.fetch "lib", .read Host.prompt, .write "a"] := by
    have kept : (Host.run (Host.recorded console) (Host.recordedSource source) 5 9 start
        ((), [])).2.2 = log := congrArg (fun result => result.2.2) recorded
    rw [← kept]
    decide +kernel
  exact ⟨reached, asked, (waits [1, 7]).1, attached, begun, rfl,
    log, ops, course, made, deeds ▸ made⟩

end Machine
end StackScript
