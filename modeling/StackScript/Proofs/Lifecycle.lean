import StackScript.Proofs.ScopeChain
import StackScript.Proofs.Waiting

/-!
What is left of a run when it is over, and what may wait while it goes on. Requests and interrupts
belong to a running machine, a stored fault to an idle one; a fault is reported once, and then
nothing happens until something is started again.
-/
namespace StackScript

def Call.restarts : Call → Bool
  | .load _ | .direct _ | .fail _ => true
  | .execute _ | .interrupt | .enter _ | .attach _ => false

namespace Machine

def afterAll (m : Machine) : List Call → Machine
  | [] => m
  | call :: calls => (m.after call).afterAll calls

def reports (m : Machine) : List Call → List Event
  | [] => []
  | .execute cycles :: calls => (m.execute cycles).2 :: reports (m.execute cycles).1 calls
  | call :: calls => reports (m.after call) calls

theorem not_running_iff (m : Machine) : m.isRunning = false ↔ m.frames.items = [] := by
  rw [isRunning, Bool.not_eq_false', Stack.isEmpty_iff]

theorem running_of_frames {m : Machine} {frame : Frame} {below : List Frame}
    (frames : m.frames = .ofList (frame :: below)) : m.isRunning = true := by
  rw [isRunning, frames, Stack.isEmpty_ofList]
  rfl

theorem frames_of_running {m : Machine} (running : m.isRunning = true) :
    ∃ frame below, m.frames = .ofList (frame :: below) := by
  cases items : m.frames.items with
  | nil => cases running.symm.trans ((not_running_iff m).mpr items)
  | cons frame below => exact ⟨frame, below, Stack.eq_of_items items⟩

/-- What every call keeps: only a running machine is interrupted, and the frames fit their stack. -/
structure Steady (m : Machine) : Prop where
  alert : m.interrupted = true → m.isRunning = true
  fits : m.frames.items.length ≤ Stack.capacity

namespace Steady

variable {m : Machine}

theorem calm (quiet : m.interrupted = false) (fits : m.frames.items.length ≤ Stack.capacity) :
    m.Steady := by
  refine ⟨?_, fits⟩
  intro alert
  cases quiet.symm.trans alert

theorem stop (m : Machine) : m.stop.Steady :=
  .calm rfl (Nat.zero_le _)

theorem moves {after : Machine} {frame : Frame} {below : List Frame} {event : Option Event}
    (moved : m.Moves frame below after event) (quiet : m.interrupted = false)
    (fits : below.length + 1 ≤ Stack.capacity) : after.Steady := by
  cases moved with
  | misses | fails | overflows | doubts | chokes => exact .stop _
  | passes | works | repeats => exact .calm quiet fits
  | enters op resume inner store inside here due performed room => exact .calm quiet room
  | closes => exact .calm quiet (Nat.le_of_succ_le fits)
  | starts body outside entry main room => exact .calm quiet room

end Steady

theorem lasting_steady : Lasting Steady where
  initial := .calm rfl (Nat.zero_le _)
  loads _ _ := .calm rfl (show 1 ≤ Stack.capacity by decide)
  directs _ _ := .calm rfl (show 1 ≤ Stack.capacity by decide)
  interrupts steady := by
    refine ⟨?_, steady.fits⟩
    intro alert
    rcases Bool.or_eq_true_iff.mp alert with noted | running
    · exact steady.alert noted
    · exact running
  fails _ _ := .calm rfl (Nat.zero_le _)
  enters line asked steady := by
    simp only [enter, asked]
    exact ⟨steady.alert, steady.fits⟩
  attaches _ _ _ room _ := ⟨fun _ => rfl, room⟩
  reports _ steady := ⟨steady.alert, steady.fits⟩
  stops _ _ := .stop _
  moves _ ready frames moved steady := by
    have fits := steady.fits
    rw [frames, Stack.items_ofList] at fits
    exact .moves moved ready.undisturbed fits

theorem reachable_steady {m : Machine} (reached : m.Reachable) : m.Steady :=
  lasting_steady.reachable reached

structure Over (m : Machine) : Prop where
  ended : m.isRunning = false
  noRequest : m.request = none
  calm : m.interrupted = false

structure Idle (m : Machine) : Prop extends Over m where
  noFault : m.fault = none

namespace Idle

variable {m : Machine}

theorem stop (noFault : m.fault = none) : m.stop.Idle :=
  ⟨⟨rfl, rfl, rfl⟩, noFault⟩

theorem execute (idle : m.Idle) (cycles : Nat) : m.execute cycles = (m, .stopped) := by
  simp [Machine.execute, idle.noFault, idle.noRequest, idle.ended]

end Idle

theorem interrupt_idle {m : Machine} (ended : m.isRunning = false) : m.interrupt = m := by
  simp [interrupt, ended]

theorem enter_unasked {m : Machine} (noRequest : m.request = none) (line : String) :
    m.enter line = m := by
  simp [enter, noRequest]

theorem attach_unasked {m : Machine} (noRequest : m.request = none) (program : Program) :
    m.attach program = m := by
  simp [attach, noRequest]

theorem Idle.lasts {m : Machine} (idle : m.Idle) (calls : List Call)
    (quiet : ∀ call ∈ calls, call.restarts = false) :
    m.afterAll calls = m ∧ ∀ event ∈ m.reports calls, event = .stopped := by
  induction calls with
  | nil => exact ⟨rfl, nofun⟩
  | cons call calls ih =>
    obtain ⟨same, stopped⟩ := ih fun other later => quiet other (List.mem_cons_of_mem _ later)
    have first := quiet call (List.mem_cons_self ..)
    cases call with
    | load | direct | fail => cases first
    | execute cycles =>
      simp only [afterAll, after, reports, idle.execute]
      refine ⟨same, ?_⟩
      intro event reported
      rcases List.mem_cons.mp reported with rfl | later
      · rfl
      · exact stopped event later
    | interrupt =>
      simp only [afterAll, after, reports, interrupt_idle idle.ended]
      exact ⟨same, stopped⟩
    | enter line =>
      simp only [afterAll, after, reports, enter_unasked idle.noRequest]
      exact ⟨same, stopped⟩
    | attach program =>
      simp only [afterAll, after, reports, attach_unasked idle.noRequest]
      exact ⟨same, stopped⟩

theorem reports_fault {m : Machine} {fault : Fault} (stored : m.fault = some fault)
    (past : m.Over) (calls : List Call)
    (quiet : ∀ call ∈ calls, call.restarts = false) (executed : m.reports calls ≠ []) :
    ∃ later, m.reports calls = .failed fault :: later ∧ ∀ event ∈ later, event = .stopped := by
  induction calls with
  | nil => exact absurd rfl executed
  | cons call calls ih =>
    have rest : ∀ other ∈ calls, other.restarts = false :=
      fun other later => quiet other (List.mem_cons_of_mem _ later)
    have first := quiet call (List.mem_cons_self ..)
    cases call with
    | load | direct | fail => cases first
    | execute cycles =>
      have reported : m.execute cycles = ({ m with fault := none }, .failed fault) := by
        simp [Machine.execute, stored]
      have idle : { m with fault := none }.Idle := ⟨⟨past.ended, past.noRequest, past.calm⟩, rfl⟩
      simp only [reports, reported]
      exact ⟨_, rfl, (idle.lasts calls rest).2⟩
    | interrupt =>
      simp only [reports, after, interrupt_idle past.ended] at executed ⊢
      exact ih rest executed
    | enter line =>
      simp only [reports, after, enter_unasked past.noRequest] at executed ⊢
      exact ih rest executed
    | attach program =>
      simp only [reports, after, attach_unasked past.noRequest] at executed ⊢
      exact ih rest executed

theorem moves_idle {m after : Machine} {frame : Frame} {below : List Frame} {fault : Fault}
    (moved : m.Moves frame below after (some (.failed fault))) (noFault : m.fault = none) :
    after.Idle := by
  generalize reported : some (Event.failed fault) = event at moved
  cases moved with
  | misses | fails | overflows | doubts | chokes => exact .stop noFault
  | works op store inside here due control => cases control <;> cases reported
  | closes =>
    split at reported <;> cases reported
  | passes | enters | repeats | starts => cases reported

theorem step_failed {m : Machine} {fault : Fault} (ready : m.Ready)
    (failed : m.step.2 = some (.failed fault)) : m.step.1.Idle := by
  cases top : m.frames.top? with
  | none =>
    simp only [step, top] at failed
    cases failed
  | some frame =>
    obtain ⟨below, frames⟩ := Stack.top_eq_some top
    have moved := step_moves frames
    rw [failed] at moved
    exact moves_idle moved ready.noFault

theorem run_failed {m : Machine} {fault : Fault} (cycles : Nat) (ready : m.Ready)
    (failed : (m.run cycles).2 = .failed fault) : (m.run cycles).1.Idle := by
  rcases run_ends (fun before => (step_quiet before).2) ready cycles with
    running | ⟨last, before, stepped⟩
  · cases failed.symm.trans running
  · have idle := @step_failed last fault before
    rw [stepped, failed] at idle
    exact idle rfl

theorem asking_running {m : Machine} (reached : m.Reachable) (asked : m.request ≠ none) :
    m.isRunning = true := by
  obtain ⟨frame, below, frames, -⟩ := (reachable_waits reached).begun asked
  exact running_of_frames frames

theorem ended_over {m : Machine} (reached : m.Reachable) (ended : m.isRunning = false) :
    m.Over := by
  refine ⟨ended, ?_, ?_⟩
  · cases asked : m.request with
    | none => rfl
    | some request =>
      cases ended.symm.trans (asking_running reached (by rw [asked]; exact nofun))
  · cases noted : m.interrupted with
    | false => rfl
    | true => cases ended.symm.trans ((reachable_steady reached).alert noted)

theorem stored_over {m : Machine} (reached : m.Reachable) (stored : m.fault ≠ none) : m.Over := by
  have frames := (reachable_waits reached).idle stored
  refine ended_over reached ?_
  rw [not_running_iff, frames, Stack.items_ofList]

theorem execute_failed {m : Machine} {cycles : Nat} {fault : Fault} (reached : m.Reachable)
    (failed : (m.execute cycles).2 = .failed fault) : (m.execute cycles).1.Idle := by
  by_cases ready : m.Ready
  · rw [execute_ready ready] at failed ⊢
    exact run_failed cycles ready failed
  · rw [(execute_waiting ready cycles).1] at failed ⊢
    unfold execute at failed ⊢
    cases stored : m.fault with
    | some cause =>
      have past := stored_over reached (by rw [stored]; exact nofun)
      exact ⟨⟨past.ended, past.noRequest, past.calm⟩, rfl⟩
    | none =>
      cases asked : m.request with
      | some request =>
        rw [stored, asked] at failed
        cases failed
      | none =>
        rw [stored, asked] at failed
        dsimp only at failed ⊢
        split at failed
        · rw [if_pos ‹_›]
          exact .stop stored
        · split at failed <;> cases failed

theorem moves_stopped {m after : Machine} {frame : Frame} {below : List Frame}
    (moved : m.Moves frame below after (some .stopped)) : after.isRunning = false := by
  generalize reported : some Event.stopped = event at moved
  cases moved with
  | closes =>
    split at reported
    · rename_i last
      rw [last]
      rfl
    · cases reported
  | works op store inside here due control => cases control <;> cases reported
  | _ => cases reported

theorem execute_stopped {m : Machine} {cycles : Nat} (stopped : (m.execute cycles).2 = .stopped) :
    (m.execute cycles).1.isRunning = false := by
  by_cases ready : m.Ready
  · rw [execute_ready ready] at stopped ⊢
    rcases run_ends (fun before => (step_quiet before).2) ready cycles with
      running | ⟨last, before, stepped⟩
    · cases stopped.symm.trans running
    · obtain ⟨frame, below, frames⟩ := frames_of_running before.running
      have moved := step_moves frames
      rw [stepped, stopped] at moved
      exact moves_stopped moved
  · rw [(execute_waiting ready cycles).1] at stopped ⊢
    unfold execute at stopped ⊢
    cases stored : m.fault with
    | some fault =>
      rw [stored] at stopped
      cases stopped
    | none =>
      cases asked : m.request with
      | some request =>
        rw [stored, asked] at stopped
        cases stopped
      | none =>
        rw [stored, asked] at stopped
        dsimp only at stopped ⊢
        split at stopped
        · cases stopped
        · rw [if_neg ‹_›]
          split at stopped
          · cases stopped
          · rw [if_neg ‹_›]
            exact Bool.eq_false_iff.mpr ‹_›

/-- In every machine that can come about, requests and interrupts wait only while it is running, and
a fault only while it is not. A machine that is not running has the global scope alone, and the call
stack never holds more than 65535 frames. A fault that was reported leaves nothing behind. One that is
handed in ends the run and is stored, with the place of the last operation if it has none; a stored
fault is the first thing reported: what follows it is `stopped`, until something is started or fails
again. -/
theorem nothing_outlives_a_run {m : Machine} (reached : m.Reachable) :
    (m.request ≠ none → m.isRunning = true) ∧
      (m.interrupted = true → m.isRunning = true) ∧
      (m.fault ≠ none → m.isRunning = false ∧ m.request = none ∧ m.interrupted = false) ∧
      (m.isRunning = false → m.store.scopes.depth = 1 ∧ m.request = none) ∧
      m.frames.items.length ≤ 65535 ∧
      (∀ cycles fault, (m.execute cycles).2 = .failed fault →
        let idle := (m.execute cycles).1
        (idle.isRunning = false ∧ idle.request = none ∧ idle.fault = none ∧
          idle.interrupted = false) ∧
        ∀ calls, (∀ call ∈ calls, call.restarts = false) →
          idle.afterAll calls = idle ∧ ∀ event ∈ idle.reports calls, event = .stopped) ∧
      (∀ fault, (m.fail fault).isRunning = false ∧
        (m.fail fault).fault = some (fault.locate m.lastPlace)) ∧
      ∀ fault, m.fault = some fault → ∀ calls, (∀ call ∈ calls, call.restarts = false) →
        m.reports calls ≠ [] →
        ∃ later, m.reports calls = .failed fault :: later ∧ ∀ event ∈ later, event = .stopped := by
  have steady := reachable_steady reached
  refine ⟨asking_running reached, steady.alert, ?_, ?_, steady.fits, ?_, fun _ => ⟨rfl, rfl⟩, ?_⟩
  · intro stored
    have past := stored_over reached stored
    exact ⟨past.ended, past.noRequest, past.calm⟩
  · intro ended
    have depth := (kept_inStep.reachable reached).depth
    rw [(not_running_iff m).mp ended] at depth
    exact ⟨depth, (ended_over reached ended).noRequest⟩
  · intro cycles fault failed
    have idle := execute_failed reached failed
    refine ⟨⟨idle.ended, idle.noRequest, idle.noFault, idle.calm⟩, ?_⟩
    intro calls quiet
    exact idle.lasts calls quiet
  · intro fault stored calls quiet executed
    have past := stored_over reached (by rw [stored]; exact nofun)
    exact reports_fault stored past calls quiet executed

/-- A word that nothing defines, in a call. -/
theorem nothing_outlives_a_run_call :
    let m := ({} : Machine).after (.direct (.ofText "t" "func f nope end f"))
    let calls := [Call.execute 1, .interrupt, .execute 2]
    m.Reachable ∧
      (m.execute 9).2 = .failed
        { kind := .unknownWord, place := some ⟨"t", 1, ⟨7, 11⟩⟩, detail := "nope" } ∧
      (m.execute 9).1.afterAll calls = (m.execute 9).1 ∧
      ∀ event ∈ (m.execute 9).1.reports calls, event = .stopped := by
  intro m calls
  have reached : m.Reachable := Reachable.initial.call (.direct _)
  have failed : (m.execute 9).2 = .failed
      { kind := .unknownWord, place := some ⟨"t", 1, ⟨7, 11⟩⟩, detail := "nope" } := by
    decide +kernel
  have quiet : ∀ call ∈ calls, call.restarts = false := by simp [calls, Call.restarts]
  obtain ⟨-, -, -, -, -, once, -⟩ := nothing_outlives_a_run reached
  exact ⟨reached, failed, (once 9 _ failed).2 calls quiet⟩

end Machine
end StackScript
