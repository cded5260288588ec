import StackScript.Machine.Execute
import StackScript.Proofs.Effect

/-!
Which machines can come about, and what one step does to a machine. `Moves` lists the steps once;
whatever holds along every run is derived from it through `Kept`.
-/
namespace StackScript

namespace Stack

variable {α : Type}

theorem top_eq_some {s : Stack α} {a : α} (top : s.top? = some a) :
    ∃ rest, s = ofList (a :: rest) := by
  obtain ⟨_ | ⟨b, rest⟩, size, size_eq⟩ := s
  · cases top
  · cases top
    exact ⟨rest, eq_of_items rfl⟩

@[simp] theorem top_ofList (a : α) (rest : List α) : (ofList (a :: rest)).top? = some a := rfl

@[simp] theorem modifyTop_ofList (f : α → α) (a : α) (rest : List α) :
    (ofList (a :: rest)).modifyTop f = ofList (f a :: rest) := eq_of_items rfl

@[simp] theorem drop_ofList (a : α) (rest : List α) :
    (ofList (a :: rest)).drop = ofList rest := eq_of_items rfl

theorem pushLimited_ofList (complaint : String) (a : α) (rest : List α) :
    pushLimited complaint a (ofList rest) =
      if capacity ≤ rest.length then .error { kind := .outOfMemory, detail := complaint } (ofList rest)
      else .ok () (ofList (a :: rest)) := rfl

theorem isEmpty_ofList (items : List α) : (ofList items).isEmpty = items.isEmpty := by
  cases items <;> rfl

end Stack

def Control.request? : Control → Option Request
  | .ask request => some request
  | _ => none

def Control.event? : Control → Option Event
  | .print text => some (.print text)
  | .ask request => some (.ask request)
  | _ => none

inductive Call where
  | load (program : Program)
  | direct (program : Program)
  | execute (cycles : Nat)
  | interrupt
  | fail (fault : Fault)
  | enter (line : String)
  | attach (program : Program)

namespace Machine

def after (m : Machine) : Call → Machine
  | .load program => m.load program
  | .direct program => m.direct program
  | .execute cycles => (m.execute cycles).1
  | .interrupt => m.interrupt
  | .fail fault => m.fail fault
  | .enter line => m.enter line
  | .attach program => m.attach program

inductive Reachable : Machine → Prop where
  | initial : Reachable {}
  | call {m : Machine} (call : Call) (before : Reachable m) : Reachable (m.after call)

def siteOf (frame : Frame) : Site :=
  ⟨frame.program, frame.next, frame.span.stop, frame.scope⟩

def overflow : Fault := { kind := .outOfMemory, detail := "CALL STACK OVERFLOW" }

inductive Moves (m : Machine) (frame : Frame) (below : List Frame) :
    Machine → Option Event → Prop where
  | passes (op : Op) (inside : frame.next < frame.span.stop)
      (here : frame.program.op? frame.next = some op)
      (skipped : frame.kind.isTopLevel && !op.isTopLevel) :
      Moves m frame below
        { m with frames := .ofList (frame.resumeAt (frame.next + 1) :: below) } none
  | misses (inside : frame.next < frame.span.stop) (missing : frame.program.op? frame.next = none) :
      Moves m frame below m.stop
        (some (.failed { kind := .internal, detail := "ADDRESS OUT OF RANGE" }))
  | fails (op : Op) (fault : Fault) (store : Store) (inside : frame.next < frame.span.stop)
      (here : frame.program.op? frame.next = some op)
      (due : (frame.kind.isTopLevel && !op.isTopLevel) = false)
      (performed : op.perform (siteOf frame) m.store = .error fault store) :
      Moves m frame below { m with store }.stop
        (some (.failed (fault.locate (frame.program.location? frame.next))))
  | works (op : Op) (store : Store) (inside : frame.next < frame.span.stop)
      (here : frame.program.op? frame.next = some op)
      (due : (frame.kind.isTopLevel && !op.isTopLevel) = false)
      (control : Control) (within : ∀ resume inner, control ≠ .enter resume inner)
      (performed : op.perform (siteOf frame) m.store = .ok control store) :
      Moves m frame below
        { m with
          store
          request := control.request? <|> m.request
          frames := .ofList (frame.resumeAt (control.resume frame.next) :: below) }
        control.event?
  | enters (op : Op) (resume : Nat) (inner : Frame) (store : Store)
      (inside : frame.next < frame.span.stop) (here : frame.program.op? frame.next = some op)
      (due : (frame.kind.isTopLevel && !op.isTopLevel) = false)
      (performed : op.perform (siteOf frame) m.store = .ok (.enter resume inner) store)
      (room : below.length + 1 < Stack.capacity) :
      Moves m frame below
        { m with store, frames := .ofList (inner :: frame.resumeAt resume :: below) } none
  | overflows (op : Op) (resume : Nat) (inner : Frame) (store : Store)
      (inside : frame.next < frame.span.stop) (here : frame.program.op? frame.next = some op)
      (due : (frame.kind.isTopLevel && !op.isTopLevel) = false)
      (performed : op.perform (siteOf frame) m.store = .ok (.enter resume inner) store)
      (full : Stack.capacity ≤ below.length + 1) :
      Moves m frame below { m with store }.stop
        (some (.failed (overflow.locate (frame.program.location? frame.next))))
  | repeats (outside : frame.span.stop ≤ frame.next) (loop : frame.kind = .loop)
      (wanted : m.store.wantsLoop = .ok true) :
      Moves m frame below
        { m with frames := .ofList (frame.resumeAt frame.span.start :: below) } none
  | doubts (fault : Fault) (outside : frame.span.stop ≤ frame.next) (loop : frame.kind = .loop)
      (doubtful : m.store.wantsLoop = .error fault) :
      Moves m frame below m.stop
        (some (.failed (fault.locate (frame.program.location? frame.span.stop))))
  | closes (outside : frame.span.stop ≤ frame.next)
      (spent : frame.kind = .loop → m.store.wantsLoop = .ok false)
      (alone : m.successor? frame = none) :
      Moves m frame below
        { m with
          store := { m.store with
            scopes := if frame.kind.ownsScope then m.store.scopes.leave frame.scope
              else m.store.scopes }
          frames := .ofList below }
        (if below = [] then some .stopped else none)
  | starts (body : Body) (outside : frame.span.stop ≤ frame.next) (entry : frame.kind = .entry)
      (main : m.store.functions["main"]? = some body) (room : below.length < Stack.capacity) :
      Moves m frame below
        { m with
          store := { m.store with values := .empty }
          frames := .ofList (.start .block body.program body.span frame.scope :: below) } none
  | chokes (body : Body) (outside : frame.span.stop ≤ frame.next) (entry : frame.kind = .entry)
      (main : m.store.functions["main"]? = some body) (full : Stack.capacity ≤ below.length) :
      Moves m frame below { m with store := { m.store with values := .empty } }.stop
        (some (.failed (overflow.locate (frame.program.location? frame.span.stop))))

variable {m : Machine} {frame : Frame} {below : List Frame}

theorem open_eq (m : Machine) (inner : Frame) (frames : List Frame)
    (same : m.frames = .ofList frames) : m.open? inner =
    if Stack.capacity ≤ frames.length then .error overflow
    else .ok { m with frames := .ofList (inner :: frames) } := by
  unfold open?
  rw [same, Stack.pushLimited_ofList]
  split
  · rename_i pushed
    split at pushed
    · cases pushed
    · cases pushed
      rw [if_neg ‹_›]
  · rename_i pushed
    split at pushed
    · cases pushed
      rw [if_pos ‹_›]
      rfl
    · cases pushed

theorem begin_eq (m : Machine) (place : Option Location) (inner : Frame) (frames : List Frame)
    (same : m.frames = .ofList frames) : m.begin place inner =
    if Stack.capacity ≤ frames.length then (m.stop, some (.failed (overflow.locate place)))
    else ({ m with frames := .ofList (inner :: frames) }, none) := by
  unfold begin
  rw [open_eq m inner frames same]
  by_cases full : Stack.capacity ≤ frames.length
  · simp only [full, ↓reduceIte, report]
  · simp only [full, ↓reduceIte]

theorem close_eq (frames : m.frames = .ofList (frame :: below)) : m.close frame =
    { m with
      store := { m.store with
        scopes := if frame.kind.ownsScope then m.store.scopes.leave frame.scope
          else m.store.scopes }
      frames := .ofList below } := by
  simp only [close, frames, Stack.drop_ofList]

theorem attach_eq {path : String} (asked : m.request = some (.program path)) (program : Program)
    (frames : List Frame) (same : m.frames = .ofList frames) : m.attach program =
    if Stack.capacity ≤ frames.length then { m with request := none }.fail overflow
    else
      { m with
        request := none
        frames := .ofList (.start .attached program program.span
          ((frames.head?.map Frame.scope).getD 0) :: frames) } := by
  have top : m.frames.top? = frames.head? := by rw [same]; rfl
  simp only [attach, asked, top]
  rw [open_eq { m with request := none } _ frames same]
  by_cases full : Stack.capacity ≤ frames.length
  · simp only [full, ↓reduceIte]
  · simp only [full, ↓reduceIte]

theorem enter_cases (m : Machine) (line : String) : m.enter line = m ∨
    m.request = some .line ∧ m.enter line =
      { m with
        store := { m.store with values := m.store.values.push (.string line) }
        request := none } := by
  unfold enter
  split
  · exact .inr ⟨‹_›, rfl⟩
  · exact .inl rfl

theorem attach_cases (m : Machine) (program : Program) : m.attach program = m ∨
    ∃ path, m.request = some (.program path) ∧
      (m.attach program = { m with request := none }.fail overflow ∨
        m.frames.items.length < Stack.capacity ∧ m.attach program =
          { m with
            request := none
            frames := .ofList (.start .attached program program.span
              ((m.frames.items.head?.map Frame.scope).getD 0) :: m.frames.items) }) := by
  by_cases asked : ∃ path, m.request = some (.program path)
  · obtain ⟨path, asked⟩ := asked
    rw [attach_eq asked program m.frames.items (Stack.eq_of_items rfl)]
    refine .inr ⟨path, asked, ?_⟩
    by_cases full : Stack.capacity ≤ m.frames.items.length
    · exact .inl (if_pos full)
    · exact .inr ⟨Nat.lt_of_not_le full, if_neg full⟩
  · unfold attach
    split
    · exact absurd ⟨_, ‹_›⟩ asked
    · exact .inl rfl

theorem perform_moves (frames : m.frames = .ofList (frame :: below)) (op : Op)
    (inside : frame.next < frame.span.stop) (here : frame.program.op? frame.next = some op)
    (due : (frame.kind.isTopLevel && !op.isTopLevel) = false) :
    Moves m frame below (m.perform frame op).1 (m.perform frame op).2 := by
  unfold perform
  cases performed : op.perform (siteOf frame) m.store with
  | error fault store =>
    simp only [siteOf] at performed
    simp only [performed, report]
    exact .fails op fault store inside here due performed
  | ok control store =>
    have resumed := Stack.modifyTop_ofList (·.resumeAt (control.resume frame.next)) frame below
    rw [← frames] at resumed
    have within := @Moves.works m frame below op store inside here due control
    simp only [siteOf] at performed
    simp only [performed, resumed]
    cases control with
    | proceed => exact within nofun performed
    | jump target => exact within nofun performed
    | print text => exact within nofun performed
    | ask request => exact within nofun performed
    | enter resume inner =>
      simp only [follow, Control.resume]
      rw [begin_eq _ _ inner (frame.resumeAt resume :: below) rfl, List.length_cons]
      by_cases full : Stack.capacity ≤ below.length + 1
      · simp only [full, ↓reduceIte]
        exact .overflows op resume inner store inside here due performed full
      · simp only [full, ↓reduceIte]
        exact .enters op resume inner store inside here due performed (by omega)

theorem leave_moves (frames : m.frames = .ofList (frame :: below))
    (outside : frame.span.stop ≤ frame.next)
    (spent : frame.kind = .loop → m.store.wantsLoop = .ok false) :
    Moves m frame below (m.leave frame).1 (m.leave frame).2 := by
  have same : (m.close frame).successor? frame = m.successor? frame := rfl
  simp only [leave, same]
  cases next : m.successor? frame with
  | none =>
    simp only [close_eq frames, isRunning, Stack.isEmpty_ofList]
    cases below with
    | nil => exact .closes outside spent next
    | cons caller below => exact .closes outside spent next
  | some body =>
    obtain ⟨entry, main⟩ : frame.kind = .entry ∧ m.store.functions["main"]? = some body := by
      unfold successor? at next
      split at next
      · exact ⟨‹_›, next⟩
      · cases next
    simp only [close_eq frames, entry, Frame.Kind.ownsScope]
    rw [begin_eq _ _ _ below rfl]
    by_cases full : Stack.capacity ≤ below.length
    · simp only [full, ↓reduceIte]
      exact .chokes body outside entry main full
    · simp only [full, ↓reduceIte]
      exact .starts body outside entry main (by omega)

theorem step_moves (frames : m.frames = .ofList (frame :: below)) :
    Moves m frame below m.step.1 m.step.2 := by
  have top : m.frames.top? = some frame := by rw [frames, Stack.top_ofList]
  simp only [step, top]
  by_cases inside : frame.next < frame.span.stop
  · simp only [inside, ↓reduceIte, advance]
    cases here : frame.program.op? frame.next with
    | none => exact .misses inside here
    | some op =>
      cases skipped : frame.kind.isTopLevel && !op.isTopLevel with
      | true =>
        simp only [skipped, ↓reduceIte, frames, Stack.modifyTop_ofList]
        exact .passes op inside here skipped
      | false =>
        simp only [skipped]
        exact perform_moves frames op inside here skipped
  · simp only [inside, ↓reduceIte, finish]
    have outside : frame.span.stop ≤ frame.next := by omega
    by_cases loop : frame.kind = .loop
    · simp only [loop, ↓reduceIte]
      cases wanted : m.store.wantsLoop with
      | error fault => exact .doubts fault outside loop wanted
      | ok truth =>
        cases truth with
        | false => exact leave_moves frames outside fun _ => wanted
        | true =>
          simp only [frames, Stack.modifyTop_ofList]
          exact .repeats outside loop wanted
    · simp only [loop, ↓reduceIte]
      exact leave_moves frames outside fun same => absurd same loop

section Steps

variable (frames : m.frames = .ofList (frame :: below)) (inside : frame.next < frame.span.stop)
  {op : Op} (here : frame.program.op? frame.next = some op)
include frames inside here

theorem step_passes (skipped : (frame.kind.isTopLevel && !op.isTopLevel) = true) :
    m.step =
      ({ m with frames := .ofList (frame.resumeAt (frame.next + 1) :: below) }, none) := by
  have top : m.frames.top? = some frame := by rw [frames, Stack.top_ofList]
  simp only [step, top, inside, ↓reduceIte, advance, here, skipped]
  rw [frames, Stack.modifyTop_ofList]

theorem step_fails (due : (frame.kind.isTopLevel && !op.isTopLevel) = false) {fault : Fault}
    {store : Store} (performed : op.perform (siteOf frame) m.store = .error fault store) :
    m.step = ({ m with store }.stop,
      some (.failed (fault.locate (frame.program.location? frame.next)))) := by
  have top : m.frames.top? = some frame := by rw [frames, Stack.top_ofList]
  simp only [siteOf] at performed
  simp only [step, top, inside, ↓reduceIte, advance, here, due, perform, performed]
  rfl

theorem step_works (due : (frame.kind.isTopLevel && !op.isTopLevel) = false) {control : Control}
    {store : Store} (performed : op.perform (siteOf frame) m.store = .ok control store)
    (within : ∀ resume inner, control ≠ .enter resume inner) :
    m.step =
      ({ m with
          store
          request := control.request? <|> m.request
          frames := .ofList (frame.resumeAt (control.resume frame.next) :: below) },
        control.event?) := by
  have top : m.frames.top? = some frame := by rw [frames, Stack.top_ofList]
  simp only [siteOf] at performed
  simp only [step, top, inside, ↓reduceIte, advance, here, due, perform, performed]
  rw [frames, Stack.modifyTop_ofList]
  cases control with
  | enter resume inner => exact absurd rfl (within resume inner)
  | _ => rfl

end Steps

theorem finish_closes (frames : m.frames = .ofList (frame :: below))
    (outside : frame.span.stop ≤ frame.next) (plain : frame.kind ≠ .loop)
    (alone : m.successor? frame = none) :
    m.step = (m.close frame, if below = [] then some .stopped else none) := by
  have top : m.frames.top? = some frame := by rw [frames, Stack.top_ofList]
  have same : (m.close frame).successor? frame = none := alone
  simp only [step, top, if_neg (Nat.not_lt.mpr outside), finish, plain, ↓reduceIte, leave, same]
  rw [close_eq frames]
  cases below <;> rfl

theorem finish_starts (frames : m.frames = .ofList (frame :: below))
    (outside : frame.span.stop ≤ frame.next) (entry : frame.kind = .entry) {body : Body}
    (main : m.store.functions["main"]? = some body) (room : below.length < Stack.capacity) :
    m.step =
      ({ m with
          store := { m.store with values := .empty }
          frames := .ofList (.start .block body.program body.span frame.scope :: below) }, none) := by
  have top : m.frames.top? = some frame := by rw [frames, Stack.top_ofList]
  have next : (m.close frame).successor? frame = some body := by
    rw [successor?, if_pos entry]
    exact main
  simp only [step, top, if_neg (Nat.not_lt.mpr outside), finish, entry, reduceCtorEq, ↓reduceIte,
    leave, next]
  rw [begin_eq _ _ _ below (by rw [close_eq frames]), if_neg (Nat.not_le.mpr room), close_eq frames]
  simp only [entry, Frame.Kind.ownsScope]
  rfl

/-- A statement about scopes, functions and frames that no call can break: it holds at the beginning,
and all that changes these three keeps it. The values do not matter to it. -/
structure Kept (holds : Scopes → Functions → List Frame → Prop) : Prop where
  initial : holds {} ∅ []
  forgets {scopes : Scopes} {functions : Functions} {frames : List Frame}
      (before : holds scopes functions frames) : holds scopes.clear ∅ []
  idles {scopes : Scopes} {functions : Functions} {frames : List Frame}
      (before : holds scopes functions frames) : holds scopes.unwind functions []
  begins {scopes : Scopes} {functions : Functions} (kind : Frame.Kind)
      (first : kind = .entry ∨ kind = .block) (program : Program)
      (before : holds scopes functions []) :
      holds scopes functions [.start kind program program.span 0]
  attaches {scopes : Scopes} {functions : Functions} {frames : List Frame} (program : Program)
      (before : holds scopes functions frames) :
      holds scopes functions
        (.start .attached program program.span ((frames.head?.map Frame.scope).getD 0) :: frames)
  passes {scopes : Scopes} {functions : Functions} {frame : Frame} {below : List Frame}
      (before : holds scopes functions (frame :: below)) (inside : frame.next < frame.span.stop) :
      holds scopes functions (frame.resumeAt (frame.next + 1) :: below)
  works {store after : Store} {frame : Frame} {below : List Frame} {op : Op} {control : Control}
      (before : holds store.scopes store.functions (frame :: below))
      (inside : frame.next < frame.span.stop) (here : frame.program.op? frame.next = some op)
      (within : ∀ resume inner, control ≠ .enter resume inner)
      (effect : op.Effect (siteOf frame) store (.ok control after)) :
      holds after.scopes after.functions (frame.resumeAt (control.resume frame.next) :: below)
  enters {store after : Store} {frame inner : Frame} {below : List Frame} {op : Op} {resume : Nat}
      (before : holds store.scopes store.functions (frame :: below))
      (inside : frame.next < frame.span.stop) (here : frame.program.op? frame.next = some op)
      (effect : op.Effect (siteOf frame) store (.ok (.enter resume inner) after)) :
      holds after.scopes after.functions (inner :: frame.resumeAt resume :: below)
  repeats {scopes : Scopes} {functions : Functions} {frame : Frame} {below : List Frame}
      (before : holds scopes functions (frame :: below)) (loop : frame.kind = .loop) :
      holds scopes functions (frame.resumeAt frame.span.start :: below)
  closes {scopes : Scopes} {functions : Functions} {frame : Frame} {below : List Frame}
      (before : holds scopes functions (frame :: below)) :
      holds (if frame.kind.ownsScope then scopes.leave frame.scope else scopes) functions below
  starts {scopes : Scopes} {functions : Functions} {frame : Frame} {below : List Frame} {body : Body}
      (before : holds scopes functions (frame :: below)) (entry : frame.kind = .entry)
      (main : functions["main"]? = some body) :
      holds scopes functions (.start .block body.program body.span frame.scope :: below)

namespace Kept

variable {holds : Scopes → Functions → List Frame → Prop}

def On (holds : Scopes → Functions → List Frame → Prop) (m : Machine) : Prop :=
  holds m.store.scopes m.store.functions m.frames.items

theorem stop (kept : Kept holds) (before : On holds m) : On holds m.stop :=
  kept.idles before

theorem moves (kept : Kept holds) {after : Machine} {event : Option Event}
    (before : holds m.store.scopes m.store.functions (frame :: below))
    (moved : Moves m frame below after event) : On holds after := by
  cases moved with
  | passes op inside here skipped => exact kept.passes before inside
  | misses inside missing => exact kept.idles before
  | fails op fault store inside here due performed =>
    cases Op.effect_of_perform performed with
    | fails values lost few left raised => exact kept.idles before
  | works op store inside here due control within performed =>
    exact kept.works before inside here within (Op.effect_of_perform performed)
  | enters op resume inner store inside here due performed room =>
    exact kept.enters before inside here (Op.effect_of_perform performed)
  | overflows op resume inner store inside here due performed full =>
    exact kept.idles (kept.enters before inside here (Op.effect_of_perform performed))
  | repeats outside loop wanted => exact kept.repeats before loop
  | doubts fault outside loop doubtful => exact kept.idles before
  | closes outside spent alone => exact kept.closes before
  | starts body outside entry main room => exact kept.starts before entry main
  | chokes body outside entry main full => exact kept.idles before

theorem step (kept : Kept holds) (before : On holds m) : On holds m.step.1 := by
  cases top : m.frames.top? with
  | none => simpa only [Machine.step, top] using before
  | some frame =>
    obtain ⟨below, frames⟩ := Stack.top_eq_some top
    refine kept.moves ?_ (step_moves frames)
    simpa only [On, frames, Stack.items_ofList] using before

theorem run (kept : Kept holds) (cycles : Nat) (before : On holds m) : On holds (m.run cycles).1 := by
  induction cycles generalizing m with
  | zero => exact before
  | succ cycles ih =>
    have next := kept.step before
    unfold Machine.run
    rcases stepped : m.step with ⟨after, _ | event⟩
    · rw [stepped] at next
      exact ih next
    · rw [stepped] at next
      exact next

theorem execute (kept : Kept holds) (cycles : Nat) (before : On holds m) :
    On holds (m.execute cycles).1 := by
  unfold Machine.execute
  split
  · exact before
  · exact before
  · split
    · exact kept.stop before
    · split
      · exact kept.run cycles before
      · exact before

theorem attach (kept : Kept holds) (program : Program) (before : On holds m) :
    On holds (m.attach program) := by
  rcases m.attach_cases program with same | ⟨path, asked, full | ⟨room, opened⟩⟩
  · rwa [same]
  · rw [full]
    exact kept.idles before
  · rw [opened]
    exact kept.attaches program before

theorem reachable (kept : Kept holds) (reached : Reachable m) : On holds m := by
  induction reached with
  | initial => exact kept.initial
  | call call before ih =>
    cases call with
    | load program => exact kept.begins .entry (.inl rfl) program (kept.forgets ih)
    | direct program => exact kept.begins .block (.inr rfl) program (kept.idles ih)
    | execute cycles => exact kept.execute cycles ih
    | interrupt => exact ih
    | fail fault => exact kept.idles ih
    | enter line =>
      simp only [after, enter]
      split <;> exact ih
    | attach program => exact kept.attach program ih

end Kept
end Machine
end StackScript
