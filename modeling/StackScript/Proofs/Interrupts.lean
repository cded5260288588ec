import StackScript.Proofs.Hosting
import StackScript.Proofs.Addresses

/-!
Interrupts. A run that is interrupted goes no further: it still takes the answer that it waits for, and
then it is over, with the fault that says so. An interrupt that finds nothing running is forgotten, and
none is left for a later run.
-/
namespace StackScript

def Call.starts : Call → Bool
  | .load _ | .direct _ => true
  | .execute _ | .interrupt | .fail _ | .enter _ | .attach _ => false

namespace Machine

def broken (m : Machine) : Fault :=
  Fault.locate { kind := .broken } m.lastPlace

/-- What can have become of `m`, which was interrupted while it was running, after `calls` that begin
no other run: it has not got further, it has got the answer it waited for, or it is over. -/
inductive Halted (m : Machine) (calls : List Call) : Machine → Prop where
  | stands : Halted m calls { m with interrupted := true }
  | entered (line : String) (asked : m.request = some .line) (given : .enter line ∈ calls) :
      Halted m calls
        { m with
          store := { m.store with values := m.store.values.push (.string line) }
          request := none
          interrupted := true }
  | attached (path : String) (program : Program) (asked : m.request = some (.program path))
      (given : .attach program ∈ calls) :
      Halted m calls
        { m with
          request := none
          frames := .ofList (.start .attached program program.span
            ((m.frames.items.head?.map Frame.scope).getD 0) :: m.frames.items)
          interrupted := true }
  | ended (values : Stack Value) (fault : Option Fault)
      (left : values = m.store.values ∨ ∃ line, m.request = some .line ∧ .enter line ∈ calls ∧
        values = m.store.values.push (.string line)) :
      Halted m calls { m.stop with store := { m.stop.store with values }, fault }

section Execution

variable {m : Machine} (cycles : Nat)

theorem execute_stored {fault : Fault} (stored : m.fault = some fault) :
    m.execute cycles = ({ m with fault := none }, .failed fault) := by
  simp [execute, stored]

theorem execute_asking {request : Request} (noFault : m.fault = none)
    (asked : m.request = some request) : m.execute cycles = (m, .ask request) := by
  simp [execute, noFault, asked]

theorem execute_interrupted (noFault : m.fault = none) (noRequest : m.request = none)
    (running : m.isRunning = true) (alert : m.interrupted = true) :
    m.execute cycles = (m.stop, .failed m.broken) := by
  simp [execute, noFault, noRequest, running, alert, broken]

end Execution

theorem running_noFault {m : Machine} (reached : m.Reachable) (running : m.isRunning = true) :
    m.fault = none := by
  cases stored : m.fault with
  | none => rfl
  | some fault =>
    have past := stored_over reached (by rw [stored]; exact nofun)
    cases running.symm.trans past.ended

namespace Halted

variable {m t : Machine} {calls more : List Call}

theorem mono (halted : m.Halted calls t) (within : calls ⊆ more) : m.Halted more t := by
  cases halted with
  | stands => exact .stands
  | entered line asked given => exact .entered line asked (within given)
  | attached path program asked given => exact .attached path program asked (within given)
  | ended values fault left =>
    refine .ended values fault ?_
    rcases left with same | ⟨line, asked, given, pushed⟩
    · exact .inl same
    · exact .inr ⟨line, asked, within given, pushed⟩

theorem fail (halted : m.Halted calls t) (fault : Fault) : m.Halted calls (t.fail fault) := by
  cases halted with
  | stands => exact .ended m.store.values _ (.inl rfl)
  | entered line asked given => exact .ended _ _ (.inr ⟨line, asked, given, rfl⟩)
  | attached => exact .ended m.store.values _ (.inl rfl)
  | ended values fault left => exact .ended values _ left

theorem interrupt (halted : m.Halted calls t) : m.Halted calls t.interrupt := by
  cases halted with
  | stands => exact .stands
  | entered line asked given => exact .entered line asked given
  | attached path program asked given => exact .attached path program asked given
  | ended values fault left => exact .ended values fault left

theorem enter (halted : m.Halted calls t) {line : String} (given : .enter line ∈ calls) :
    m.Halted calls (t.enter line) := by
  cases halted with
  | stands =>
    rcases enter_cases { m with interrupted := true } line with same | ⟨asked, entered⟩
    · rw [same]
      exact .stands
    · rw [entered]
      exact .entered line asked given
  | entered line asked given => exact .entered line asked given
  | attached path program asked given => exact .attached path program asked given
  | ended values fault left => exact .ended values fault left

theorem attach (halted : m.Halted calls t) {program : Program} (given : .attach program ∈ calls) :
    m.Halted calls (t.attach program) := by
  cases halted with
  | stands =>
    rcases attach_cases { m with interrupted := true } program with
      same | ⟨path, asked, full | ⟨-, opened⟩⟩
    · rw [same]
      exact .stands
    · rw [full]
      exact .ended m.store.values _ (.inl rfl)
    · rw [opened]
      exact .attached path program asked given
  | entered line asked given => exact .entered line asked given
  | attached path program asked given => exact .attached path program asked given
  | ended values fault left => exact .ended values fault left

theorem stop (halted : m.Halted calls t) : m.Halted calls t.stop := by
  cases halted with
  | stands | attached => exact .ended m.store.values m.fault (.inl rfl)
  | entered line asked given => exact .ended _ m.fault (.inr ⟨line, asked, given, rfl⟩)
  | ended values fault left => exact .ended values fault left

theorem report (halted : m.Halted calls t) (past : t.Over) (running : m.isRunning = true) :
    m.Halted calls { t with fault := none } := by
  cases halted with
  | stands | entered => cases running.symm.trans past.ended
  | attached => cases past.ended
  | ended values fault left => exact .ended values none left

theorem alert (halted : m.Halted calls t) (noFault : m.fault = none) (running : t.isRunning = true) :
    t.fault = none ∧ t.interrupted = true ∧
      ∀ request, t.request = some request → m.request = some request := by
  cases halted with
  | stands => exact ⟨noFault, rfl, fun request asked => asked⟩
  | entered | attached => exact ⟨noFault, rfl, nofun⟩
  | ended => cases running

theorem past (halted : m.Halted calls t) (running : m.isRunning = true)
    (ended : t.isRunning = false) : t.Over := by
  cases halted with
  | stands | entered => cases running.symm.trans ended
  | attached => cases ended
  | ended => exact ⟨rfl, rfl, rfl⟩

theorem execute (halted : m.Halted calls t) (noFault : m.fault = none) (running : m.isRunning = true)
    (cycles : Nat) : m.Halted calls (t.execute cycles).1 ∧
      ((t.execute cycles).2 = .stopped ∨ (∃ fault, (t.execute cycles).2 = .failed fault) ∨
        ∃ request, m.request = some request ∧ (t.execute cycles).2 = .ask request) := by
  cases there : t.isRunning with
  | true =>
    obtain ⟨none, alert, same⟩ := halted.alert noFault there
    cases asked : t.request with
    | none =>
      rw [execute_interrupted cycles none asked there alert]
      exact ⟨halted.stop, .inr (.inl ⟨_, rfl⟩)⟩
    | some request =>
      rw [execute_asking cycles none asked]
      exact ⟨halted, .inr (.inr ⟨request, same request asked, rfl⟩)⟩
  | false =>
    have past := halted.past running there
    cases stored : t.fault with
    | some fault =>
      rw [execute_stored cycles stored]
      exact ⟨halted.report past running, .inr (.inl ⟨fault, rfl⟩)⟩
    | none =>
      rw [Idle.execute ⟨past, stored⟩ cycles]
      exact ⟨halted, .inl rfl⟩

theorem after (halted : m.Halted calls t) (noFault : m.fault = none) (running : m.isRunning = true)
    {call : Call} (same : call.starts = false) : m.Halted (calls ++ [call]) (t.after call) := by
  have wider : m.Halted (calls ++ [call]) t := halted.mono (List.subset_append_left ..)
  have given : call ∈ calls ++ [call] := by simp
  cases call with
  | load | direct => cases same
  | execute cycles => exact (wider.execute noFault running cycles).1
  | interrupt => exact wider.interrupt
  | fail fault => exact wider.fail fault
  | enter line => exact wider.enter given
  | attach program => exact wider.attach given

theorem afterAll (halted : m.Halted calls t) (noFault : m.fault = none)
    (running : m.isRunning = true) (later : List Call)
    (same : ∀ call ∈ later, call.starts = false) : m.Halted (calls ++ later) (t.afterAll later) := by
  induction later generalizing calls t with
  | nil => rwa [List.append_nil]
  | cons call later ih =>
    obtain ⟨first, others⟩ := List.forall_mem_cons.mp same
    have next := ih (halted.after noFault running first) others
    rwa [List.append_assoc, List.singleton_append] at next

theorem reports (halted : m.Halted calls t) (noFault : m.fault = none)
    (running : m.isRunning = true) (later : List Call)
    (same : ∀ call ∈ later, call.starts = false) :
    ∀ event ∈ t.reports later, event = .stopped ∨ (∃ fault, event = .failed fault) ∨
      ∃ request, m.request = some request ∧ event = .ask request := by
  induction later generalizing calls t with
  | nil => exact nofun
  | cons call later ih =>
    obtain ⟨first, others⟩ := List.forall_mem_cons.mp same
    have next := ih (halted.after noFault running first) others
    cases call with
    | execute cycles =>
      intro event reported
      rcases List.mem_cons.mp reported with rfl | since
      · exact (halted.execute noFault running cycles).2
      · exact next event since
    | _ => exact next

end Halted

section Quiet

variable {m : Machine} {frame : Frame} {below : List Frame}

theorem moves_unbroken {after : Machine} {fault : Fault}
    (moved : m.Moves frame below after (some (.failed fault))) : fault.kind ≠ .broken := by
  have others : Fault.Kind.broken ∉ Op.faultKinds := by decide
  generalize reported : some (Event.failed fault) = event at moved
  cases moved with
  | misses | overflows | chokes =>
    cases reported
    exact nofun
  | fails op cause store inside here due performed =>
    cases reported
    cases Op.effect_of_perform performed with
    | fails values lost few left raised =>
      cases raised with
      | plain unplaced kind => exact fun same => others (same ▸ kind)
      | unclosed branches missing =>
        have kind := Block.find_missing missing
        exact fun same => by cases kind.symm.trans same
  | doubts cause outside loop doubtful =>
    cases reported
    have kind := (wantsLoop_fault doubtful).2
    exact fun same => by cases kind.symm.trans same
  | works op store inside here due control => cases control <;> cases reported
  | closes => split at reported <;> cases reported
  | passes | enters | repeats | starts => cases reported

theorem moves_calm {after : Machine} {event : Option Event}
    (moved : m.Moves frame below after event) (calm : m.interrupted = false) :
    after.interrupted = false := by
  cases moved with
  | misses | fails | overflows | doubts | chokes => rfl
  | passes | works | enters | repeats | closes | starts => exact calm

theorem step_calm (calm : m.interrupted = false) :
    m.step.1.interrupted = false ∧
      ∀ fault, m.step.2 = some (.failed fault) → fault.kind ≠ .broken := by
  cases top : m.frames.top? with
  | none =>
    simp only [step, top]
    refine ⟨calm, ?_⟩
    intro fault failed
    cases failed
  | some frame =>
    obtain ⟨below, frames⟩ := Stack.top_eq_some top
    have moved := step_moves frames
    exact ⟨moves_calm moved calm, fun fault failed => moves_unbroken (failed ▸ moved)⟩

theorem run_calm (calm : m.interrupted = false) (cycles : Nat) :
    (m.run cycles).1.interrupted = false ∧
      ∀ fault, (m.run cycles).2 = .failed fault → fault.kind ≠ .broken := by
  induction cycles generalizing m with
  | zero => exact ⟨calm, nofun⟩
  | succ cycles ih =>
    have next := step_calm calm
    rcases stepped : m.step with ⟨after, _ | event⟩
    · rw [stepped] at next
      rw [run_quiet stepped]
      exact ih next.1
    · rw [stepped] at next
      rw [run_loud stepped]
      exact ⟨next.1, fun fault same => next.2 fault (congrArg some same)⟩

/-- Without an interrupt, only a fault that was stored before can say that a run was broken off. -/
theorem execute_calm (calm : m.interrupted = false) (cycles : Nat) :
    (m.execute cycles).1.interrupted = false ∧
      ∀ fault, (m.execute cycles).2 = .failed fault → fault.kind = .broken →
        m.fault = some fault := by
  unfold execute
  cases stored : m.fault with
  | some fault => exact ⟨calm, fun other same _ => congrArg some (Event.failed.inj same)⟩
  | none =>
    cases m.request with
    | some request => exact ⟨calm, nofun⟩
    | none =>
      simp only [calm, Bool.and_false, Bool.false_eq_true, ↓reduceIte]
      split
      · have ran := run_calm calm cycles
        exact ⟨ran.1, fun fault failed kind => absurd kind (ran.2 fault failed)⟩
      · exact ⟨calm, nofun⟩

theorem after_calm (calm : m.interrupted = false) {call : Call} (other : call ≠ .interrupt) :
    (m.after call).interrupted = false := by
  cases call with
  | load | direct | fail => rfl
  | execute cycles => exact (execute_calm calm cycles).1
  | interrupt => exact absurd rfl other
  | enter line =>
    rcases m.enter_cases line with same | ⟨-, entered⟩
    · rwa [after, same]
    · rwa [after, entered]
  | attach program =>
    rcases m.attach_cases program with same | ⟨path, -, full | ⟨-, opened⟩⟩
    · rwa [after, same]
    · rw [after, full]
      rfl
    · rwa [after, opened]

def Refused (calls : List Call) (fault : Fault) : Prop :=
  ∃ cause place, Call.fail cause ∈ calls ∧ fault = cause.locate place

theorem Refused.later {calls : List Call} {fault : Fault} (refused : Refused calls fault)
    (call : Call) : Refused (call :: calls) fault := by
  obtain ⟨cause, place, member, same⟩ := refused
  exact ⟨cause, place, List.mem_cons_of_mem _ member, same⟩

theorem after_stores {call : Call} {fault : Fault} (stored : (m.after call).fault = some fault)
    (kind : fault.kind = .broken) (calls : List Call) :
    m.fault = some fault ∨ Refused (call :: calls) fault := by
  cases call with
  | load | direct => cases stored
  | execute cycles =>
    rw [after, execute_spends] at stored
    cases stored
  | interrupt => exact .inl stored
  | fail cause =>
    cases stored
    exact .inr ⟨cause, m.lastPlace, List.mem_cons_self .., rfl⟩
  | enter line =>
    rcases m.enter_cases line with same | ⟨-, entered⟩
    · rw [after, same] at stored
      exact .inl stored
    · rw [after, entered] at stored
      exact .inl stored
  | attach program =>
    rcases m.attach_cases program with same | ⟨path, -, full | ⟨-, opened⟩⟩
    · rw [after, same] at stored
      exact .inl stored
    · rw [after, full] at stored
      cases stored
      cases kind
    · rw [after, opened] at stored
      exact .inl stored

theorem calm_reports (calls : List Call) (uninterrupted : .interrupt ∉ calls)
    (calm : m.interrupted = false) :
    ∀ fault, .failed fault ∈ m.reports calls → fault.kind = .broken →
      m.fault = some fault ∨ Refused calls fault := by
  induction calls generalizing m with
  | nil => exact nofun
  | cons call calls ih =>
    intro fault reported kind
    rw [List.mem_cons, not_or] at uninterrupted
    obtain ⟨first, others⟩ := uninterrupted
    have since : .failed fault ∈ (m.after call).reports calls →
        m.fault = some fault ∨ Refused (call :: calls) fault := by
      intro later
      rcases ih others (after_calm calm (Ne.symm first)) fault later kind with stored | refused
      · exact after_stores stored kind calls
      · exact .inr (refused.later call)
    cases call with
    | execute cycles =>
      rcases List.mem_cons.mp reported with now | later
      · exact .inl ((execute_calm calm cycles).2 fault now.symm kind)
      · exact since later
    | _ => exact since reported

def Unbroken (m : Machine) : Prop :=
  ∀ calls fault, .interrupt ∉ calls → .failed fault ∈ m.reports calls → fault.kind = .broken →
    Refused calls fault

theorem Unbroken.calm (other : ∀ fault, m.fault = some fault → fault.kind ≠ .broken)
    (calm : m.interrupted = false) : m.Unbroken := by
  intro calls fault uninterrupted reported kind
  rcases calm_reports calls uninterrupted calm fault reported kind with stored | refused
  · exact absurd kind (other fault stored)
  · exact refused

theorem Unbroken.fresh (noFault : m.fault = none) (calm : m.interrupted = false) : m.Unbroken := by
  refine .calm ?_ calm
  intro fault stored
  cases noFault.symm.trans stored

end Quiet
end Machine

theorem Host.turn_interrupted {σ : Type} {console : Console (StateM σ)} {source : Source (StateM σ)}
    {m : Machine} {world later : σ} (noFault : m.fault = none) (noRequest : m.request = none)
    (running : m.isRunning = true) (alarm : console.interrupted world = (true, later))
    (cycles : Nat) :
    turn console source cycles m world = ((m.stop, some (.error m.broken)), later) := by
  have alert : m.interrupt = { m with interrupted := true } := by simp [Machine.interrupt, running]
  have stopped : m.interrupt.execute cycles = (m.stop, .failed m.broken) := by
    rw [alert]
    exact Machine.execute_interrupted cycles noFault noRequest running rfl
  rw [turn_eq, alarm]
  simp only [polled, ↓reduceIte, stopped]
  rfl

namespace Machine

/-- An interrupt of a running machine ends its run. As long as no other run is begun, nothing more of it
is carried out: executions ask again for what it waits for, and the first that finds nothing to wait for
reports the fault and leaves the machine idle; or the request is refused, and that is reported. Where
nothing is running an interrupt does nothing, and a run that was begun later, or one that has ended, is
not broken off by it. A host whose console interrupts gives up at once, without another word to it. -/
theorem interrupts_end_the_run {m : Machine} (reached : m.Reachable) :
    (m.isRunning = true → ∀ calls, (∀ call ∈ calls, call.starts = false) →
      let halted := m.interrupt.afterAll calls
      m.Halted calls halted ∧
      (∀ event ∈ m.interrupt.reports calls, event = .stopped ∨ (∃ fault, event = .failed fault) ∨
        ∃ request, m.request = some request ∧ event = .ask request) ∧
      (halted.isRunning = true → ∀ cycles,
        halted.stop.Idle ∧
        (halted.request = none → halted.execute cycles = (halted.stop, .failed halted.broken)) ∧
        ∀ request, halted.request = some request →
          halted.execute cycles = (halted, .ask request) ∧
          ∀ cause, (halted.fail cause).execute cycles =
            (halted.stop, .failed (cause.locate halted.lastPlace)))) ∧
      (m.isRunning = false → m.interrupt = m) ∧
      (∀ program, (m.load program).Unbroken ∧ (m.direct program).Unbroken) ∧
      (m.isRunning = false → (∀ fault, m.fault = some fault → fault.kind ≠ .broken) → m.Unbroken) ∧
      (∀ cycles, ((m.execute cycles).2 = .stopped ∨ ∃ fault, (m.execute cycles).2 = .failed fault) →
        (m.execute cycles).1.Unbroken) ∧
      ∀ (σ : Type) (console : Console (StateM σ)) (source : Source (StateM σ)) (cycles turns : Nat)
        (world between later : σ) (running : Machine),
        Host.run console source cycles turns m world = ((running, none), between) →
        running.isRunning = true → running.request = none →
        console.interrupted between = (true, later) →
        ∀ more, Host.run console source cycles (turns + (more + 1)) m world =
          ((running.stop, some (.error running.broken)), later) := by
  refine ⟨?_, interrupt_idle, ?_, ?_, ?_, ?_⟩
  · intro running calls same halted
    have noFault := running_noFault reached running
    have interrupted : m.Halted [] m.interrupt := by
      have alert : m.interrupt = { m with interrupted := true } := by
        simp [Machine.interrupt, running]
      rw [alert]
      exact .stands
    have goes : m.Halted calls halted := interrupted.afterAll noFault running calls same
    refine ⟨goes, interrupted.reports noFault running calls same, ?_⟩
    intro there cycles
    obtain ⟨none, alert, -⟩ := goes.alert noFault there
    have idle : halted.stop.Idle := .stop none
    refine ⟨idle, fun noRequest => execute_interrupted cycles none noRequest there alert, ?_⟩
    intro request asked
    refine ⟨execute_asking cycles none asked, ?_⟩
    intro cause
    rw [execute_stored cycles rfl]
    exact congrArg (·, _) (congrArg (fun fault => { halted.stop with fault }) none.symm)
  · intro program
    exact ⟨.fresh rfl rfl, .fresh rfl rfl⟩
  · intro ended other
    exact .calm other (ended_over reached ended).calm
  · intro cycles finished
    refine .fresh (m.execute_spends cycles) ?_
    rcases finished with stopped | ⟨fault, failed⟩
    · exact (ended_over (reached.call (.execute cycles)) (execute_stopped stopped)).calm
    · exact (execute_failed reached failed).calm
  · intro σ console source cycles turns world between later running unfinished there noRequest alarm more
    have still : (Host.run console source cycles turns m world).1.1.Reachable :=
      Host.kept_reachable.run reached cycles turns world
    rw [unfinished] at still
    rw [Host.run_from unfinished, Host.run_succ,
      Host.turn_interrupted (running_noFault still there) noRequest there alarm]
    rfl

/-- A run that waits for a line, and one without an end whose console interrupts at the third poll. -/
theorem interrupts_end_the_run_endless :
    let waiting := (({} : Machine).after (.direct (.ofText "t" "input write"))).after (.execute 1)
    let answered := waiting.interrupt.afterAll [.execute 3, .enter "a"]
    let endless := ({} : Machine).after (.direct (.ofText "t" "1 while end"))
    let console : Console (StateM Nat) :=
      { write := fun _ => pure (.ok ())
        readLine := fun _ => pure (.ok "a")
        interrupted := fun polls => (polls == 2, polls + 1) }
    let source : Source (StateM Nat) := fun _ => pure (.ok [])
    let running := (Host.run console source 4 2 endless 0).1.1
    waiting.Reachable ∧ waiting.request = some .line ∧
      answered.execute 5 =
        (answered.stop, .failed { kind := .broken, place := some ⟨"t", 1, ⟨0, 5⟩⟩ }) ∧
      endless.Reachable ∧
      ∀ more, Host.run console source 4 (2 + (more + 1)) endless 0 =
        ((running.stop, some (.error { kind := .broken, place := some ⟨"t", 1, ⟨2, 7⟩⟩ })), 3) := by
  intro waiting answered endless console source running
  have asking : waiting.Reachable := (Reachable.initial.call (.direct _)).call (.execute 1)
  have started : endless.Reachable := Reachable.initial.call (.direct _)
  have asked : waiting.request = some .line := by decide +kernel
  have there : waiting.isRunning = true := by decide +kernel
  have still : answered.isRunning = true := by decide +kernel
  have got : answered.request = none := by decide +kernel
  have fault : answered.broken = { kind := .broken, place := some ⟨"t", 1, ⟨0, 5⟩⟩ } := by
    decide +kernel
  have unfinished : Host.run console source 4 2 endless 0 = ((running, none), 2) := by
    have quiet : (Host.run console source 4 2 endless 0).1.2.isNone = true := by decide +kernel
    have polls : (Host.run console source 4 2 endless 0).2 = 2 := by decide +kernel
    exact Prod.ext (Prod.ext rfl (Option.isNone_iff_eq_none.mp quiet)) polls
  have goesOn : running.isRunning = true := by decide +kernel
  have noRequest : running.request = none := by decide +kernel
  have place : running.broken = { kind := .broken, place := some ⟨"t", 1, ⟨2, 7⟩⟩ } := by
    decide +kernel
  obtain ⟨-, -, finished⟩ := (interrupts_end_the_run asking).1 there [.execute 3, .enter "a"]
    (by simp [Call.starts])
  obtain ⟨-, -, -, -, -, hosted⟩ := interrupts_end_the_run started
  refine ⟨asking, asked, ?_, started, ?_⟩
  · rw [← fault]
    exact (finished still 5).2.1 got
  · intro more
    rw [← place]
    exact hosted Nat console source 4 2 0 2 3 running unfinished goesOn noRequest rfl more

end Machine
end StackScript
