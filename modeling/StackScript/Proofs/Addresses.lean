import StackScript.Proofs.Lifecycle

/-!
Addresses do not leave their programs, so no run misses an operation; and a name that nothing binds is
an unknown word, never an unknown variable. Faults of the two kinds that would say otherwise are
reported only when the driver of the machine has handed them in.
-/
namespace StackScript

def Fault.Kind.isForeign : Fault.Kind → Bool
  | .internal | .unknownVariable => true
  | _ => false

theorem Block.find_missing {program : Program} {opener limit : Nat} {branches : Bool} {fault : Fault}
    (failed : find program opener limit branches = .error fault) : fault.kind = .missingEnd := by
  unfold find at failed
  split at failed
  · cases failed
  · cases failed
    rfl

theorem Site.Raises.native {site : Site} {fault : Fault} (raises : site.Raises fault) :
    fault.kind.isForeign = false := by
  have natives : ∀ kind ∈ Op.faultKinds, kind.isForeign = false := by decide
  cases raises with
  | plain unplaced kind => exact natives fault.kind kind
  | unclosed branches missing =>
    rw [Block.find_missing missing]
    rfl

namespace Machine

variable {m : Machine} {frame : Frame} {below : List Frame}

theorem moves_native {after : Machine} {fault : Fault}
    (moved : m.Moves frame below after (some (.failed fault))) (placed : frame.Placed) :
    fault.kind.isForeign = false := by
  generalize reported : some (Event.failed fault) = event at moved
  cases moved with
  | misses inside missing =>
    -- the frame stands in its span, and its span lies in its program
    have exist := placed.exist
    have there := (frame.program.op_isSome_iff frame.next).mpr (by omega)
    rw [missing] at there
    cases there
  | fails op cause store inside here due performed =>
    cases reported
    cases Op.effect_of_perform performed with
    | fails values lost few left raised => exact raised.native
  | overflows | chokes =>
    cases reported
    rfl
  | doubts cause outside loop doubtful =>
    cases reported
    change cause.kind.isForeign = false
    rw [(wantsLoop_fault doubtful).2]
    rfl
  | works op store inside here due control => cases control <;> cases reported
  | closes => split at reported <;> cases reported
  | passes | enters | repeats | starts => cases reported

theorem moves_fault {after : Machine} {event : Option Event}
    (moved : m.Moves frame below after event) : after.fault = m.fault := by
  cases moved <;> rfl

theorem step_native {fault : Fault} (enclosed : Enclosed m.store.functions m.frames.items)
    (failed : m.step.2 = some (.failed fault)) : fault.kind.isForeign = false := by
  cases top : m.frames.top? with
  | none =>
    simp only [step, top] at failed
    cases failed
  | some frame =>
    obtain ⟨below, frames⟩ := Stack.top_eq_some top
    have moved := step_moves frames
    rw [frames, Stack.items_ofList] at enclosed
    rw [failed] at moved
    exact moves_native moved enclosed.top

theorem step_fault (m : Machine) : m.step.1.fault = m.fault := by
  cases top : m.frames.top? with
  | none => simp only [step, top]
  | some frame =>
    obtain ⟨below, frames⟩ := Stack.top_eq_some top
    exact moves_fault (step_moves frames)

theorem run_native {fault : Fault} (enclosed : Enclosed m.store.functions m.frames.items)
    (cycles : Nat) (failed : (m.run cycles).2 = .failed fault) : fault.kind.isForeign = false := by
  rcases run_ends (fun before _ => kept_enclosed.step before) enclosed cycles with
    running | ⟨last, before, stepped⟩
  · cases failed.symm.trans running
  · refine step_native before (m := last) ?_
    rw [stepped, failed]

theorem run_fault (m : Machine) (cycles : Nat) : (m.run cycles).1.fault = m.fault := by
  induction cycles generalizing m with
  | zero => rfl
  | succ cycles ih =>
    have same := m.step_fault
    rcases stepped : m.step with ⟨after, _ | event⟩
    · rw [stepped] at same
      rw [run_quiet stepped, ih]
      exact same
    · rw [stepped] at same
      rw [run_loud stepped]
      exact same

theorem execute_native {fault : Fault} {cycles : Nat} (reached : m.Reachable)
    (failed : (m.execute cycles).2 = .failed fault) :
    m.fault = some fault ∨ fault.kind.isForeign = false := by
  unfold execute at failed
  split at failed
  · rename_i stored
    cases failed
    exact .inl stored
  · cases failed
  · split at failed
    · cases failed
      exact .inr rfl
    · split at failed
      · exact .inr (run_native (kept_enclosed.reachable reached) cycles failed)
      · cases failed

theorem execute_spends (m : Machine) (cycles : Nat) : (m.execute cycles).1.fault = none := by
  unfold execute
  split
  · rfl
  · assumption
  · rename_i clear _
    split
    · exact clear
    · split
      · rw [run_fault]
        exact clear
      · exact clear

/-- If the fault is of a foreign kind, it is one of those handed in, with a place if it had none. -/
def HandedIn (calls : List Call) (fault : Fault) : Prop :=
  fault.kind.isForeign → ∃ cause place, Call.fail cause ∈ calls ∧ fault = cause.locate place

namespace HandedIn

variable {calls more : List Call} {fault : Fault}

theorem native (kind : fault.kind.isForeign = false) : HandedIn calls fault := by
  intro foreign
  cases kind.symm.trans foreign

theorem mono (handed : HandedIn calls fault) (within : calls ⊆ more) : HandedIn more fault := by
  intro foreign
  obtain ⟨cause, place, member, same⟩ := handed foreign
  exact ⟨cause, place, within member, same⟩

end HandedIn

theorem after_stored {calls : List Call}
    (stored : ∀ fault, m.fault = some fault → HandedIn calls fault) (call : Call) :
    ∀ fault, (m.after call).fault = some fault → HandedIn (calls ++ [call]) fault := by
  have before : ∀ fault, m.fault = some fault → HandedIn (calls ++ [call]) fault := by
    intro fault same
    exact (stored fault same).mono (List.subset_append_left ..)
  intro fault same
  cases call with
  | load | direct => cases same
  | execute cycles =>
    rw [after, execute_spends] at same
    cases same
  | interrupt => exact before fault same
  | fail cause =>
    cases same
    intro _
    exact ⟨cause, m.lastPlace, by simp, rfl⟩
  | enter line =>
    rcases m.enter_cases line with idle | ⟨-, entered⟩
    · rw [after, idle] at same
      exact before fault same
    · rw [after, entered] at same
      exact before fault same
  | attach program =>
    rcases m.attach_cases program with idle | ⟨path, -, full | ⟨-, opened⟩⟩
    · rw [after, idle] at same
      exact before fault same
    · rw [after, full] at same
      cases same
      exact .native rfl
    · rw [after, opened] at same
      exact before fault same

theorem reports_handed_in (earlier : List Call) (reached : m.Reachable)
    (stored : ∀ fault, m.fault = some fault → HandedIn earlier fault) (calls : List Call) :
    ∀ fault, Event.failed fault ∈ m.reports calls → HandedIn (earlier ++ calls) fault := by
  induction calls generalizing m earlier with
  | nil => exact nofun
  | cons call calls ih =>
    intro fault reported
    have later := ih (earlier ++ [call]) (reached.call call) (after_stored stored call) fault
    rw [List.append_assoc, List.singleton_append] at later
    cases call with
    | execute cycles =>
      rcases List.mem_cons.mp reported with now | since
      · rcases execute_native reached now.symm with same | kind
        · exact (stored fault same).mono (List.subset_append_left ..)
        · exact .native kind
      · exact later since
    | _ => exact later reported

theorem reachable_afterAll (reached : m.Reachable) (calls : List Call) :
    (m.afterAll calls).Reachable := by
  induction calls generalizing m with
  | nil => exact reached
  | cons call calls ih => exact ih (reached.call call)

/-- After any calls, every frame stands in its span and every span, of a frame or of a function's
body, lies in its program. What the executions among the calls report is neither an internal fault
nor an unknown variable, but for those that were handed in. -/
theorem addresses_stay_in_their_program (calls : List Call) :
    let m := ({} : Machine).afterAll calls
    (∀ frame ∈ m.frames.items, frame.span.start ≤ frame.next ∧ frame.next ≤ frame.span.stop ∧
      frame.span.stop ≤ frame.program.size) ∧
    (∀ (name : String) (body : Body), m.store.functions[name]? = some body →
      body.span.start ≤ body.span.stop ∧ body.span.stop ≤ body.program.size) ∧
    ∀ fault, Event.failed fault ∈ ({} : Machine).reports calls →
      fault.kind = .internal ∨ fault.kind = .unknownVariable →
      ∃ cause place, Call.fail cause ∈ calls ∧ fault = cause.locate place := by
  intro m
  have enclosed : Enclosed m.store.functions m.frames.items :=
    kept_enclosed.reachable (reachable_afterAll .initial calls)
  refine ⟨?_, ?_, ?_⟩
  · intro frame member
    have placed := enclosed.placed frame member
    exact ⟨placed.begun, placed.bounded, placed.exist⟩
  · intro name body defined
    have defines := enclosed.bodies name body defined
    exact ⟨defines.start_le_stop, defines.sealed.exist⟩
  · intro fault reported kind
    have handed := reports_handed_in [] .initial nofun calls fault reported
    refine handed ?_
    rcases kind with same | same <;> rw [same] <;> rfl

/-- A call that waits for a line, which the driver refuses with an internal fault. -/
theorem addresses_stay_in_their_program_refused :
    let program := Program.ofText "t" "func f input end f"
    let asking := [Call.direct program, .execute 3]
    let calls := asking ++ [.fail { kind := .internal }, .execute 1]
    let frame : Frame := ⟨.call, program, ⟨2, 3⟩, 3, 1⟩
    let body : Body := ⟨program, ⟨2, 3⟩⟩
    let fault : Fault := { kind := .internal, place := some ⟨"t", 1, ⟨7, 12⟩⟩ }
    (frame ∈ (({} : Machine).afterAll asking).frames.items ∧ frame.next ≤ frame.span.stop ∧
      frame.span.stop ≤ program.size) ∧
    ((({} : Machine).afterAll asking).store.functions["f"]? = some body ∧
      body.span.start ≤ body.span.stop) ∧
    Event.failed fault ∈ ({} : Machine).reports calls ∧
      ∃ cause place, Call.fail cause ∈ calls ∧ fault = cause.locate place := by
  intro program asking calls frame body fault
  have member : frame ∈ (({} : Machine).afterAll asking).frames.items := by decide +kernel
  have defined : (({} : Machine).afterAll asking).store.functions["f"]? = some body := by
    decide +kernel
  have reported : Event.failed fault ∈ ({} : Machine).reports calls := by decide +kernel
  obtain ⟨frames, bodies, -⟩ := addresses_stay_in_their_program asking
  obtain ⟨-, -, faults⟩ := addresses_stay_in_their_program calls
  exact ⟨⟨member, (frames frame member).2⟩, ⟨defined, (bodies "f" body defined).1⟩,
    reported, faults fault reported (.inl rfl)⟩

end Machine
end StackScript
