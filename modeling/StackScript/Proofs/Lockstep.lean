import StackScript.Proofs.Following
import StackScript.Proofs.Lifecycle
import StackScript.Proofs.Likeness

/-!
Two machines that go side by side, one step each at a time. Either they do the same for good, or the
lowest frame of the second has more to do than that of the first; then they go on together until the
first is done.
-/
namespace StackScript

theorem Frame.Matches.resume {rest : List Op} {first second : Frame}
    (matched : first.Matches rest second) {steps : Nat} (within : steps ≤ first.ahead.length) :
    (first.resumeAt (first.next + steps)).Matches rest (second.resumeAt (second.next + steps)) := by
  refine ⟨matched.kind, matched.scope, ?_, matched.body⟩
  rw [Frame.ahead_resume, Frame.ahead_resume, matched.ahead, List.drop_append_of_le_length within]

/-- The program that a run began with, and what another run does after it. A word at the end of the
program would mean something else before `@`. -/
structure Sequel where
  program : Program
  rest : List Op
  fresh : rest.head? ≠ some .assign

/-- Stacks of frames that are alike. With a sequel, the lowest frames are those of its program and of
the longer one. -/
inductive Abreast : Option Sequel → List Frame → List Frame → Prop where
  | idle : Abreast none [] []
  | base {sequel : Sequel} {first second : Frame} (matched : first.Matches sequel.rest second)
      (kind : first.kind = .block) (program : first.program = sequel.program)
      (span : first.span = sequel.program.span) : Abreast (some sequel) [first] [second]
  | inner {more : Option Sequel} {first second : Frame} {below others : List Frame}
      (matched : first.Matches [] second) (lower : Abreast more below others) :
      Abreast more (first :: below) (second :: others)

namespace Abreast

variable {more : Option Sequel} {first second : Frame} {below others : List Frame}

theorem length_eq (abreast : Abreast more below others) : below.length = others.length := by
  induction abreast with
  | idle => rfl
  | base => rfl
  | inner matched lower ih => rw [List.length_cons, List.length_cons, ih]

theorem scope_eq (abreast : Abreast more below others) :
    below.head?.map Frame.scope = others.head?.map Frame.scope := by
  cases abreast with
  | idle => rfl
  | base matched => exact congrArg some matched.scope
  | inner matched => exact congrArg some matched.scope

structure Top (more : Option Sequel) (first second : Frame) (below others : List Frame)
    (rest : List Op) : Prop where
  matched : first.Matches rest second
  strict : more = none → rest = []
  fresh : rest.head? ≠ some .assign
  resume : ∀ next other, (first.resumeAt next).Matches rest (second.resumeAt other) →
    Abreast more (first.resumeAt next :: below) (second.resumeAt other :: others)

theorem top (abreast : Abreast more (first :: below) (second :: others)) :
    ∃ rest, Top more first second below others rest := by
  cases abreast with
  | @base sequel _ _ matched kind program span =>
    exact ⟨_, matched, nofun, sequel.fresh, fun _ _ next => .base next kind program span⟩
  | inner matched lower =>
    exact ⟨[], matched, fun _ => rfl, nofun, fun _ _ next => .inner next lower⟩

end Abreast

namespace Machine

structure Abreast (more : Option Sequel) (m n : Machine) : Prop where
  store : m.store.Like n.store
  frames : StackScript.Abreast more m.frames.items n.frames.items
  request : m.request = n.request
  fault : m.fault.map Fault.unplaced = n.fault.map Fault.unplaced
  interrupted : m.interrupted = n.interrupted

/-- The outcome of one step, or of an answer, on both sides. With a sequel it only matters as long as
the first machine runs. -/
def Tracks (more : Option Sequel) (first second : Machine × Option Event) : Prop :=
  more = none ∨ first.1.isRunning = true →
    first.1.Abreast more second.1 ∧ first.2.map Event.unplaced = second.2.map Event.unplaced

variable {more : Option Sequel} {m n : Machine} {frame other : Frame} {below others : List Frame}

theorem Abreast.withStore (abreast : m.Abreast more n) {store next : Store}
    (like : store.Like next) : { m with store }.Abreast more { n with store := next } :=
  ⟨like, abreast.frames, abreast.request, abreast.fault, abreast.interrupted⟩

theorem Abreast.withFrames (abreast : m.Abreast more n) {frames stack : List Frame}
    {store next : Store} (like : store.Like next)
    (both : StackScript.Abreast more frames stack) :
    { m with store, frames := .ofList frames }.Abreast more
      { n with store := next, frames := .ofList stack } :=
  ⟨like, both, abreast.request, abreast.fault, abreast.interrupted⟩

theorem Abreast.stop (abreast : m.Abreast none n) : m.stop.Abreast none n.stop :=
  ⟨abreast.store.withScopes Scopes.unwind, .idle, rfl, abreast.fault, rfl⟩

theorem Abreast.report (abreast : m.Abreast more n) {store next : Store} (like : store.Like next)
    {fault cause : Fault} (equal : fault.unplaced = cause.unplaced) :
    Tracks more ({ m with store }.report fault) ({ n with store := next }.report cause) := by
  intro goes
  rcases goes with rfl | running
  · exact ⟨(abreast.withStore like).stop, congrArg (some ∘ Event.failed) equal⟩
  · cases running

theorem Abreast.begin (abreast : m.Abreast more n) {inner entered : Frame}
    (matched : inner.Matches [] entered) (place elsewhere : Option Location) :
    Tracks more (m.begin place inner) (n.begin elsewhere entered) := by
  rw [begin_eq m place inner m.frames.items (Stack.eq_of_items rfl),
    begin_eq n elsewhere entered n.frames.items (Stack.eq_of_items rfl),
    abreast.frames.length_eq]
  by_cases full : Stack.capacity ≤ n.frames.items.length
  · simp only [full, ↓reduceIte]
    exact abreast.report abreast.store rfl
  · simp only [full, ↓reduceIte]
    intro _
    exact ⟨abreast.withFrames abreast.store (.inner matched abreast.frames), rfl⟩

section Tops

variable {rest : List Op} (abreast : m.Abreast more n) (frames : m.frames = .ofList (frame :: below))
  (stack : n.frames = .ofList (other :: others))
  (top : StackScript.Abreast.Top more frame other below others rest)
include abreast frames stack top

theorem resumed {steps : Nat} (within : steps ≤ frame.ahead.length) {store next : Store}
    (like : store.Like next) :
    Abreast more
      { m with
        store
        frames := m.frames.modifyTop (·.resumeAt (frame.next + steps)) }
      { n with
        store := next
        frames := n.frames.modifyTop (·.resumeAt (other.next + steps)) } := by
  rw [frames, stack, Stack.modifyTop_ofList, Stack.modifyTop_ofList]
  exact abreast.withFrames like (top.resume _ _ (top.matched.resume within))

theorem perform_tracks (sites : (siteOf frame).Matches rest (siteOf other)) (op : Op) :
    Tracks more (m.perform frame op) (n.perform other op) := by
  unfold perform
  have agrees := op.perform_matches sites top.fresh m.store n.store abreast.store
  simp only [siteOf] at agrees
  generalize op.perform _ m.store = result, op.perform _ n.store = outcome at agrees
  cases agrees with
  | fails equal like => exact abreast.report like equal
  | parts loose =>
    -- the first failed where it saw too little of the code, so it does not run on
    intro goes
    rcases goes with none | running
    · exact absurd (top.strict none) loose
    · cases running
  | works equal like =>
    have onward {steps : Nat} (within : steps ≤ frame.ahead.length) :=
      resumed abreast frames stack top within like
    have one := onward sites.inside.nonempty
    cases equal with
    | proceed => exact fun _ => ⟨one, rfl⟩
    | jump steps within => exact fun _ => ⟨onward within, rfl⟩
    | print text => exact fun _ => ⟨one, rfl⟩
    | ask request =>
      exact fun _ => ⟨⟨one.store, one.frames, rfl, one.fault, one.interrupted⟩, rfl⟩
    | enter steps within matched => exact (onward within).begin matched _ _

theorem advance_tracks (sites : (siteOf frame).Matches rest (siteOf other)) :
    Tracks more (m.advance frame) (n.advance other) := by
  have first (site : Site) (within : site.Inside) :
      site.program.op? site.address = site.ahead[0]? := by
    rw [Site.ahead, Program.getElem?_ops]
    exact (if_pos within.inside).symm
  have nonempty := sites.inside.nonempty
  have same : other.program.op? other.next = frame.program.op? frame.next := by
    have here := first _ sites.inside
    have there := first _ sites.other
    rw [sites.ahead, List.getElem?_append_left nonempty] at there
    exact there.trans here.symm
  unfold advance
  rw [same, ← top.matched.kind]
  cases frame.program.op? frame.next with
  | none => exact abreast.report abreast.store rfl
  | some op =>
    dsimp only
    split
    · exact fun _ => ⟨resumed abreast frames stack top nonempty abreast.store, rfl⟩
    · exact perform_tracks abreast frames stack top sites op

end Tops

theorem Abreast.running (abreast : m.Abreast more n) : m.isRunning = n.isRunning := by
  unfold isRunning Stack.isEmpty
  rw [m.frames.size_eq, n.frames.size_eq, abreast.frames.length_eq]

section Ends

variable (abreast : m.Abreast more n) (frames : m.frames = .ofList (frame :: below))
  (stack : n.frames = .ofList (other :: others)) (matched : frame.Matches [] other)
  (lower : StackScript.Abreast more below others)
include abreast frames stack matched lower

theorem closed : (m.close frame).Abreast more (n.close other) := by
  rw [close_eq frames, close_eq stack, ← matched.kind, ← matched.scope]
  refine abreast.withFrames ?_ lower
  split
  · exact abreast.store.withScopes fun scopes => scopes.leave frame.scope
  · exact abreast.store

theorem leave_tracks : Tracks more (m.leave frame) (n.leave other) := by
  have closed := closed abreast frames stack matched lower
  have functions := closed.store.functions "main"
  have none_tracks : Tracks more
      (m.close frame, if (m.close frame).isRunning then none else some .stopped)
      (n.close other, if (n.close other).isRunning then none else some .stopped) := by
    rw [closed.running]
    exact fun _ => ⟨closed, rfl⟩
  unfold leave
  simp only [successor?, ← matched.kind]
  by_cases entry : frame.kind = .entry
  · simp only [entry, ↓reduceIte]
    cases main : (m.close frame).store.functions["main"]? with
    | none =>
      rw [main, Option.map_none, eq_comm, Option.map_eq_none_iff] at functions
      rw [functions]
      exact none_tracks
    | some body =>
      cases start : (n.close other).store.functions["main"]? with
      | none =>
        rw [main, start] at functions
        cases functions
      | some code =>
        rw [main, start] at functions
        have cleared := closed.withStore (closed.store.withValues .empty)
        rw [← matched.scope]
        exact cleared.begin (.start .block _ (Option.some.inj functions)) _ _
  · simp only [entry, ↓reduceIte]
    exact none_tracks

theorem finish_tracks : Tracks more (m.finish frame) (n.finish other) := by
  unfold finish
  rw [← matched.kind, ← abreast.store.wantsLoop]
  by_cases loop : frame.kind = .loop
  · simp only [loop, ↓reduceIte]
    cases m.store.wantsLoop with
    | error fault => exact abreast.report abreast.store rfl
    | ok wanted =>
      cases wanted with
      | false => exact leave_tracks abreast frames stack matched lower
      | true =>
        rw [frames, stack, Stack.modifyTop_ofList, Stack.modifyTop_ofList]
        have again : (frame.resumeAt frame.span.start).Matches [] (other.resumeAt other.span.start) :=
          ⟨matched.kind, matched.scope, matched.body loop, matched.body⟩
        exact fun _ => ⟨abreast.withFrames abreast.store (.inner again lower), rfl⟩
  · simp only [loop, ↓reduceIte]
    exact leave_tracks abreast frames stack matched lower

end Ends

theorem base_ends (frames : m.frames = .ofList [frame]) (outside : frame.span.stop ≤ frame.next)
    (kind : frame.kind = .block) : m.step = (m.close frame, some .stopped) ∧
      (m.close frame).isRunning = false := by
  constructor
  · exact finish_closes frames outside (by simp [kind]) (by simp [successor?, kind])
  · rw [close_eq frames]
    rfl

theorem step_tracks (abreast : m.Abreast more n)
    (placed : ∀ frame ∈ m.frames.items, frame.Placed)
    (alongside : ∀ frame ∈ n.frames.items, frame.Placed) : Tracks more m.step n.step := by
  have both := abreast.frames
  have frames : m.frames = .ofList m.frames.items := Stack.eq_of_items rfl
  have stack : n.frames = .ofList n.frames.items := Stack.eq_of_items rfl
  generalize m.frames.items = first, n.frames.items = second at both frames stack placed alongside
  cases first with
  | nil =>
    cases both
    unfold step
    rw [frames, stack]
    exact fun _ => ⟨abreast, rfl⟩
  | cons frame below =>
    cases second with
    | nil => cases both
    | cons other others =>
      have exist := (placed frame (List.mem_cons_self ..)).exist
      have also := (alongside other (List.mem_cons_self ..)).exist
      have length : frame.ahead.length = frame.span.stop - frame.next := frame.program.length_ops exist
      have total : other.ahead.length = other.span.stop - other.next := other.program.length_ops also
      have up : m.frames.top? = some frame := by rw [frames, Stack.top_ofList]
      have top : n.frames.top? = some other := by rw [stack, Stack.top_ofList]
      by_cases inside : frame.next < frame.span.stop
      · obtain ⟨rest, highest⟩ := both.top
        have longer := congrArg List.length highest.matched.ahead
        rw [List.length_append] at longer
        have further : other.next < other.span.stop := by omega
        simp only [step, up, top, inside, further, ↓reduceIte]
        exact advance_tracks abreast frames stack highest
          ⟨highest.matched.scope, highest.matched.ahead, ⟨inside, exist⟩, ⟨further, also⟩⟩
      · have outside : frame.span.stop ≤ frame.next := Nat.le_of_not_lt inside
        cases both with
        | base matched kind =>
          -- the first run is over, while the other has the sequel ahead
          intro goes
          obtain ⟨stepped, ended⟩ := base_ends frames outside kind
          rw [stepped] at goes
          rcases goes with none | running
          · cases none
          · cases ended.symm.trans running
        | inner matched lower =>
          have longer := congrArg List.length matched.ahead
          rw [List.append_nil] at longer
          have past : ¬other.next < other.span.stop := by omega
          simp only [step, up, top, inside, past, ↓reduceIte]
          exact finish_tracks abreast frames stack matched lower

theorem unplaced_getD {event other : Option Event}
    (same : event.map Event.unplaced = other.map Event.unplaced) :
    (event.getD .running).unplaced = (other.getD .running).unplaced := by
  cases event with
  | none =>
    cases other with
    | none => rfl
    | some other => cases same
  | some event =>
    cases other with
    | none => cases same
    | some other => exact Option.some.inj same

theorem Abreast.execute (abreast : m.Abreast more n)
    (reached : m.Reachable) (also : n.Reachable)
    (goes : more = none ∨ (m.execute 1).1.isRunning = true) :
    (m.execute 1).1.Abreast more (n.execute 1).1 ∧
      (m.execute 1).2.unplaced = (n.execute 1).2.unplaced := by
  have faults := abreast.fault
  unfold Machine.execute at goes ⊢
  rw [← abreast.request, ← abreast.interrupted, ← abreast.running]
  cases fault : m.fault with
  | some fault =>
    cases cause : n.fault with
    | none =>
      rw [fault, cause] at faults
      cases faults
    | some cause =>
      rw [fault, cause] at faults
      exact ⟨⟨abreast.store, abreast.frames, rfl, rfl, rfl⟩,
        congrArg Event.failed (Option.some.inj faults)⟩
  | none =>
    cases cause : n.fault with
    | some cause =>
      rw [fault, cause] at faults
      cases faults
    | none =>
      rw [fault] at goes
      cases asked : m.request with
      | some request => exact ⟨abreast, rfl⟩
      | none =>
        rw [asked] at goes
        dsimp only at goes ⊢
        split
        · rw [if_pos ‹_›] at goes
          rcases goes with rfl | running
          · exact ⟨abreast.stop, rfl⟩
          · cases running
        · rw [if_neg ‹_›] at goes
          split
          · rw [if_pos ‹_›, run_one] at goes
            rw [run_one, run_one]
            have tracks := step_tracks abreast (kept_enclosed.reachable reached).placed
              (kept_enclosed.reachable also).placed goes
            exact ⟨tracks.1, unplaced_getD tracks.2⟩
          · exact ⟨abreast, rfl⟩

theorem Abreast.fails (abreast : m.Abreast more n) (fault : Fault)
    (goes : more = none ∨ (m.fail fault).isRunning = true) :
    (m.fail fault).Abreast more (n.fail fault) := by
  rcases goes with rfl | running
  · exact ⟨abreast.store.withScopes Scopes.unwind, .idle, rfl, rfl, rfl⟩
  · cases running

theorem Abreast.answered (abreast : m.Abreast more n) :
    { m with request := none }.Abreast more { n with request := none } :=
  ⟨abreast.store, abreast.frames, rfl, abreast.fault, abreast.interrupted⟩

theorem Abreast.attach (abreast : m.Abreast more n) {path : String}
    (asked : m.request = some (.program path)) (program : Program)
    (goes : more = none ∨ (m.attach program).isRunning = true) :
    (m.attach program).Abreast more (n.attach program) := by
  have same := abreast.request.symm.trans asked
  have frames : m.frames = .ofList m.frames.items := Stack.eq_of_items rfl
  have stack : n.frames = .ofList n.frames.items := Stack.eq_of_items rfl
  rw [attach_eq asked program _ frames] at goes ⊢
  rw [attach_eq same program _ stack, ← abreast.frames.length_eq, ← abreast.frames.scope_eq]
  by_cases full : Stack.capacity ≤ m.frames.items.length
  · simp only [full, ↓reduceIte] at goes ⊢
    exact abreast.answered.fails overflow goes
  · simp only [full, ↓reduceIte]
    refine ⟨abreast.store, .inner (.start .attached _ rfl) abreast.frames, rfl, abreast.fault,
      abreast.interrupted⟩

theorem Abreast.receive (abreast : m.Abreast more n) (answer : Answer) :
    (m.receive? answer = none ∧ n.receive? answer = none) ∨
      ∃ after next, m.receive? answer = some after ∧ n.receive? answer = some next ∧
        (more = none ∨ after.isRunning = true → after.Abreast more next) := by
  unfold receive?
  rw [← abreast.request]
  cases asked : m.request with
  | none => exact .inl ⟨rfl, rfl⟩
  | some request =>
    cases answer with
    | line text =>
      cases request with
      | program path => exact .inl ⟨rfl, rfl⟩
      | line =>
        refine .inr ⟨_, _, rfl, rfl, fun _ => ?_⟩
        have same := abreast.request.symm.trans asked
        simp only [enter, asked, same]
        exact (abreast.withStore (abreast.store.push (.string text))).answered
    | program program =>
      cases request with
      | line => exact .inl ⟨rfl, rfl⟩
      | program path => exact .inr ⟨_, _, rfl, rfl, abreast.attach asked program⟩
    | fault fault =>
      cases request with
      | line => exact .inr ⟨_, _, rfl, rfl, abreast.fails fault⟩
      | program path => exact .inr ⟨_, _, rfl, rfl, abreast.fails fault⟩

end Machine

namespace Session

structure Abreast (more : Option Sequel) (s t : Session) : Prop where
  machine : s.machine.Abreast more t.machine
  answers : s.answers = t.answers
  events : s.events.map Event.unplaced = t.events.map Event.unplaced

variable {more : Option Sequel} {s t : Session}

theorem Abreast.record (abreast : s.Abreast more t) {event other : Event} {m n : Machine}
    (both : m.Abreast more n) (same : event.unplaced = other.unplaced) :
    (s.record event m).Abreast more (t.record other n) := by
  refine ⟨both, abreast.answers, ?_⟩
  have shown (s : Session) (event : Event) (m : Machine) :
      (s.record event m).events = s.events ++ [event] := List.map_append
  rw [shown, shown, List.map_append, List.map_append, abreast.events, List.map_singleton,
    List.map_singleton, same]

theorem Abreast.reply (abreast : s.Abreast more t)
    (goes : more = none ∨ s.reply.machine.isRunning = true) : s.reply.Abreast more t.reply := by
  unfold Session.reply at goes ⊢
  rw [← abreast.answers]
  cases queued : s.answers with
  | nil => exact abreast
  | cons answer answers =>
    rw [queued] at goes
    dsimp only at goes ⊢
    rcases abreast.machine.receive answer with ⟨refused, declined⟩ | ⟨after, next, taken, given, both⟩
    · rw [refused, declined]
      exact abreast
    · rw [taken] at goes ⊢
      rw [given]
      exact ⟨both goes, rfl, abreast.events⟩

theorem reply_ended (past : s.machine.Over) : s.reply = s := by
  unfold Session.reply
  cases s.answers with
  | nil => rfl
  | cons answer answers =>
    have refused : s.machine.receive? answer = none := by
      unfold Machine.receive?
      rw [past.noRequest]
    simp only [refused]

theorem Abreast.turn (abreast : s.Abreast more t)
    (reached : s.machine.Reachable) (also : t.machine.Reachable)
    (goes : more = none ∨ (s.turn 1).machine.isRunning = true) :
    (s.turn 1).Abreast more (t.turn 1) := by
  have executed : (s.machine.execute 1).1.Reachable := reached.call (.execute 1)
  have tracks := abreast.machine.execute reached also
  unfold Session.turn at goes ⊢
  generalize s.machine.execute 1 = result, t.machine.execute 1 = outcome at goes executed tracks ⊢
  obtain ⟨m, event⟩ := result
  obtain ⟨n, other⟩ := outcome
  have recorded (running : more = none ∨ m.isRunning = true) :
      (s.record event m).Abreast more (t.record other n) :=
    abreast.record (tracks running).1 (tracks running).2
  have same (running : more = none ∨ m.isRunning = true) := Event.eq_or_failed (tracks running).2
  cases event with
  | running =>
    rcases same goes with rfl | ⟨fault, cause, impossible, -⟩
    · exact ⟨(tracks goes).1, abreast.answers, abreast.events⟩
    · cases impossible
  | ask request =>
    have running : more = none ∨ m.isRunning = true := by
      rcases goes with none | running
      · exact .inl none
      · cases ended : m.isRunning with
        | true => exact .inr rfl
        | false =>
          have same := @reply_ended (s.record (.ask request) m) (Machine.ended_over executed ended)
          dsimp only at running
          rw [same] at running
          exact .inr (ended.symm.trans running)
    rcases same running with rfl | ⟨fault, cause, impossible, -⟩
    · exact (recorded running).reply goes
    · cases impossible
  | stopped =>
    rcases same goes with rfl | ⟨fault, cause, impossible, -⟩
    · exact recorded goes
    · cases impossible
  | print text =>
    rcases same goes with rfl | ⟨fault, cause, impossible, -⟩
    · exact recorded goes
    · cases impossible
  | failed fault =>
    rcases same goes with rfl | ⟨fault, cause, -, rfl⟩
    · exact recorded goes
    · exact recorded goes

theorem ended_turn (reached : s.machine.Reachable) (ended : s.machine.isRunning = false) :
    (s.turn 1).machine.isRunning = false := by
  have past := Machine.ended_over reached ended
  unfold Session.turn Machine.execute
  rw [past.noRequest, ended]
  cases s.machine.fault with
  | none => exact ended
  | some fault => exact ended

theorem ended_cycles (reached : s.machine.Reachable) (ended : s.machine.isRunning = false) (n : Nat) :
    (s.cycles n).machine.isRunning = false := by
  induction n generalizing s with
  | zero => exact ended
  | succ n ih => exact ih (reachable_turn reached 1) (ended_turn reached ended)

theorem Abreast.cycles (abreast : s.Abreast more t)
    (reached : s.machine.Reachable) (also : t.machine.Reachable) (n : Nat)
    (goes : more = none ∨ (s.cycles n).machine.isRunning = true) :
    (s.cycles n).Abreast more (t.cycles n) := by
  induction n generalizing s t with
  | zero => exact abreast
  | succ n ih =>
    have next : more = none ∨ (s.turn 1).machine.isRunning = true := by
      rcases goes with none | running
      · exact .inl none
      · cases ended : (s.turn 1).machine.isRunning with
        | true => exact .inr rfl
        | false => exact .inr ((ended_cycles (reachable_turn reached 1) ended n).symm.trans running)
    exact ih (abreast.turn reached also next) (reachable_turn reached 1)
      (reachable_turn also 1) goes

end Session
end StackScript
