import StackScript.Host
import StackScript.Proofs.Session

/-!
The size of the slices does not show: a longer slice does what as many single cycles do, up to the
first event, and no event can be told apart by where a slice ended before it.
-/
namespace StackScript
namespace Machine

structure Ready (m : Machine) : Prop where
  noFault : m.fault = none
  noRequest : m.request = none
  running : m.isRunning = true
  undisturbed : m.interrupted = false

theorem execute_ready {m : Machine} (ready : m.Ready) (cycles : Nat) :
    m.execute cycles = m.run cycles := by
  unfold execute
  simp [ready.noFault, ready.noRequest, ready.running, ready.undisturbed]

theorem execute_waiting {m : Machine} (waiting : ¬m.Ready) (cycles : Nat) :
    m.execute cycles = m.execute 0 ∧ (m.execute cycles).2 ≠ .running := by
  unfold execute
  cases fault : m.fault with
  | some fault => exact ⟨rfl, nofun⟩
  | none =>
    cases request : m.request with
    | some request => exact ⟨rfl, nofun⟩
    | none =>
      cases running : m.isRunning with
      | false => exact ⟨rfl, nofun⟩
      | true =>
        cases interrupted : m.interrupted with
        | true => exact ⟨rfl, nofun⟩
        | false => exact absurd ⟨fault, request, running, interrupted⟩ waiting

theorem moves_quiet {m after : Machine} {frame : Frame} {below : List Frame} {event : Option Event}
    (moved : m.Moves frame below after event) (ready : m.Ready) :
    event ≠ some .running ∧ (event = none → after.Ready) := by
  obtain ⟨noFault, noRequest, running, undisturbed⟩ := ready
  cases moved with
  | passes | enters | repeats | starts =>
    exact ⟨nofun, fun _ => ⟨noFault, noRequest, rfl, undisturbed⟩⟩
  | misses | fails | overflows | doubts | chokes => exact ⟨nofun, nofun⟩
  | works op store inside here due control within performed =>
    cases control with
    | proceed | jump target => exact ⟨nofun, fun _ => ⟨noFault, noRequest, rfl, undisturbed⟩⟩
    | print text | ask request => exact ⟨nofun, nofun⟩
    | enter resume inner => exact absurd rfl (within resume inner)
  | closes outside spent alone =>
    cases below with
    | nil => exact ⟨nofun, nofun⟩
    | cons caller below => exact ⟨nofun, fun _ => ⟨noFault, noRequest, rfl, undisturbed⟩⟩

theorem step_quiet {m : Machine} (ready : m.Ready) :
    m.step.2 ≠ some .running ∧ (m.step.2 = none → m.step.1.Ready) := by
  obtain ⟨frame, below, frames⟩ : ∃ frame below, m.frames = .ofList (frame :: below) := by
    have running := ready.running
    cases items : m.frames.items with
    | nil => simp [isRunning, (Stack.isEmpty_iff m.frames).mpr items] at running
    | cons frame below => exact ⟨frame, below, Stack.eq_of_items items⟩
  exact moves_quiet (step_moves frames) ready

theorem run_quiet {m after : Machine} (stepped : m.step = (after, none)) (cycles : Nat) :
    m.run (cycles + 1) = after.run cycles := by
  simp only [run, stepped]

theorem run_loud {m after : Machine} {event : Event} (stepped : m.step = (after, some event))
    (cycles : Nat) : m.run (cycles + 1) = (after, event) := by
  simp only [run, stepped]

/-- A run that reports something does so in its last step, and what its quiet steps keep holds before
that one. -/
theorem run_ends {holds : Machine → Prop} {m : Machine}
    (quiet : ∀ {m : Machine}, holds m → m.step.2 = none → holds m.step.1) (before : holds m)
    (cycles : Nat) : (m.run cycles).2 = .running ∨
      ∃ last : Machine, holds last ∧ last.step = ((m.run cycles).1, some (m.run cycles).2) := by
  induction cycles generalizing m with
  | zero => exact .inl rfl
  | succ cycles ih =>
    have next := quiet before
    rcases stepped : m.step with ⟨after, _ | event⟩
    · rw [stepped] at next
      rw [run_quiet stepped]
      exact ih (next rfl)
    · rw [run_loud stepped]
      exact .inr ⟨m, before, stepped⟩

theorem run_one (m : Machine) : m.run 1 = (m.step.1, m.step.2.getD .running) := by
  unfold run
  rcases m.step with ⟨after, _ | event⟩ <;> rfl

theorem execute_one {m after : Machine} {event : Option Event} (ready : m.Ready)
    (stepped : m.step = (after, event)) : m.execute 1 = (after, event.getD .running) := by
  rw [execute_ready ready, run_one, stepped]

theorem run_add {m : Machine} (ready : m.Ready) (first second : Nat) :
    m.run (first + second) =
      if (m.run first).2 = .running then (m.run first).1.run second else m.run first := by
  induction first generalizing m with
  | zero => rw [Nat.zero_add, run, if_pos rfl]
  | succ first ih =>
    obtain ⟨loud, quiet⟩ := step_quiet ready
    rw [Nat.succ_add]
    rcases stepped : m.step with ⟨after, event⟩
    rw [stepped] at loud quiet
    cases event with
    | none =>
      rw [run_quiet stepped, run_quiet stepped]
      exact ih (quiet rfl)
    | some event =>
      rw [run_loud stepped, run_loud stepped, if_neg fun same => loud (congrArg some same)]

theorem run_ready {m : Machine} (ready : m.Ready) (cycles : Nat)
    (running : (m.run cycles).2 = .running) : (m.run cycles).1.Ready := by
  induction cycles generalizing m with
  | zero => exact ready
  | succ cycles ih =>
    obtain ⟨loud, quiet⟩ := step_quiet ready
    rcases stepped : m.step with ⟨after, event⟩
    rw [stepped] at loud quiet
    cases event with
    | none =>
      rw [run_quiet stepped] at running ⊢
      exact ih (quiet rfl) running
    | some event =>
      rw [run_loud stepped] at running
      exact absurd (congrArg some running) loud

theorem ready_of_running {m : Machine} {cycles : Nat}
    (running : (m.execute cycles).2 = .running) : m.Ready :=
  Classical.byContradiction fun waiting => (execute_waiting waiting cycles).2 running

theorem execute_add {m : Machine} (first second : Nat)
    (running : (m.execute first).2 = .running) :
    (m.execute first).1.execute second = m.execute (first + second) := by
  have ready := ready_of_running running
  rw [execute_ready ready] at running ⊢
  rw [execute_ready (run_ready ready first running), execute_ready ready, run_add ready,
    if_pos running]

theorem execute_event {m : Machine} (first second : Nat)
    (event : (m.execute first).2 ≠ .running) : m.execute (first + second) = m.execute first := by
  by_cases ready : m.Ready
  · rw [execute_ready ready] at event ⊢
    rw [execute_ready ready, run_add ready, if_neg event]
  · rw [(execute_waiting ready _).1, (execute_waiting ready first).1]

theorem execute_beyond {m : Machine} {first cycles : Nat} (event : (m.execute first).2 ≠ .running)
    (more : first ≤ cycles) : m.execute cycles = m.execute first := by
  obtain ⟨rest, rfl⟩ := Nat.exists_eq_add_of_le more
  exact execute_event first rest event

theorem execute_within {m : Machine} {first cycles : Nat} (running : (m.execute first).2 = .running)
    (within : cycles ≤ first) : (m.execute cycles).2 = .running := by
  refine Classical.byContradiction fun event => event ?_
  rwa [execute_beyond event within] at running

end Machine

namespace Session

theorem turn_running {s : Session} {cycles : Nat}
    (running : (s.machine.execute cycles).2 = .running) :
    s.turn cycles = { s with machine := (s.machine.execute cycles).1 } := by
  unfold turn
  rcases executed : s.machine.execute cycles with ⟨m, event⟩
  rw [executed] at running
  cases running
  rfl

theorem turn_eq_cycles (cycles : Nat) (positive : 0 < cycles) (s : Session) :
    ∃ n, 0 < n ∧ s.turn cycles = s.cycles n := by
  induction cycles generalizing s with
  | zero => omega
  | succ rest ih =>
    by_cases running : (s.machine.execute 1).2 = .running
    · cases rest with
      | zero => exact ⟨1, Nat.one_pos, rfl⟩
      | succ rest =>
        obtain ⟨n, pos, same⟩ := ih (Nat.succ_pos _) (s.turn 1)
        refine ⟨n + 1, Nat.succ_pos n, ?_⟩
        rw [Session.cycles, ← same, turn_running running]
        unfold turn
        rw [Machine.execute_add 1 (rest + 1) running, Nat.add_comm 1]
        rcases s.machine.execute (rest + 1 + 1) with ⟨m, event⟩
        cases event <;> rfl
    · refine ⟨1, Nat.one_pos, ?_⟩
      rw [Session.cycles, Session.cycles, turn, turn, Nat.add_comm rest 1,
        Machine.execute_event 1 rest running]

theorem drive_eq_cycles (budgets : Nat → Nat) (positive : ∀ i, 0 < budgets i) (turns : Nat)
    (s : Session) : ∃ n, turns ≤ n ∧ s.drive budgets turns = s.cycles n := by
  induction turns with
  | zero => exact ⟨0, Nat.le_refl 0, rfl⟩
  | succ turns ih =>
    obtain ⟨n, more, same⟩ := ih
    obtain ⟨k, pos, next⟩ := turn_eq_cycles (budgets turns) (positive turns) (s.cycles n)
    refine ⟨n + k, by omega, ?_⟩
    rw [drive, same, next, cycles_add]

/-- What one division into slices shows, any other shows as well, if it goes on for long enough. -/
theorem drive_log_prefix (first second : Nat → Nat) (first_pos : ∀ i, 0 < first i)
    (second_pos : ∀ i, 0 < second i) (turns : Nat) (s : Session) :
    ∃ more, (s.drive first turns).log <+: (s.drive second more).log := by
  obtain ⟨n, -, same⟩ := drive_eq_cycles first first_pos turns s
  obtain ⟨k, enough, other⟩ := drive_eq_cycles second second_pos n s
  obtain ⟨rest, rfl⟩ := Nat.exists_eq_add_of_le enough
  refine ⟨n, ?_⟩
  rw [same, other, cycles_add]
  exact log_cycles rest (s.cycles n)

end Session

namespace Host

variable {σ : Type} {console : Console (StateM σ)} {source : Source (StateM σ)}

def goOn (console : Console (StateM σ)) (source : Source (StateM σ)) (cycles turns : Nat) :
    (Machine × Option (Except Fault Unit)) × σ → (Machine × Option (Except Fault Unit)) × σ
  | ((m, none), world) => run console source cycles turns m world
  | ((m, some result), world) => ((m, some result), world)

theorem run_succ (cycles turns : Nat) (m : Machine) (world : σ) :
    run console source cycles (turns + 1) m world =
      goOn console source cycles turns (turn console source cycles m world) := by
  rw [run]
  simp only [bind, StateT.bind]
  rcases turn console source cycles m world with ⟨⟨m, _ | result⟩, world⟩ <;> rfl

theorem turn_calm (calm : console.interrupted = pure false) (cycles : Nat) (m : Machine) (world : σ) :
    turn console source cycles m world =
      (match m.execute cycles with
      | (m, .stopped) => pure (m, some (.ok ()))
      | (m, .running) => pure (m, none)
      | (m, .print text) => do
        match ← console.write text with
        | .ok () => return (m, none)
        | .error fault => return (m, some (.error fault))
      | (m, .ask request) => do return (← answer console source m request, none)
      | (m, .failed fault) => pure (m, some (.error fault)) :
        StateM σ (Machine × Option (Except Fault Unit))) world := by
  unfold turn
  rw [calm, pure_bind]
  rfl

theorem turn_running {m : Machine} {cycles : Nat} (calm : console.interrupted = pure false)
    (running : (m.execute cycles).2 = .running) (world : σ) :
    turn console source cycles m world = (((m.execute cycles).1, none), world) := by
  rw [turn_calm calm]
  rcases executed : m.execute cycles with ⟨after, event⟩
  rw [executed] at running
  cases running
  rfl

theorem turn_same {m other : Machine} {cycles more : Nat} (calm : console.interrupted = pure false)
    (same : other.execute more = m.execute cycles) (world : σ) :
    turn console source more other world = turn console source cycles m world := by
  rw [turn_calm calm, turn_calm calm, same]

theorem run_turn (calm : console.interrupted = pure false) (cycles : Nat) (positive : 0 < cycles)
    (m : Machine) (world : σ) :
    ∃ singles, 0 < singles ∧ ∀ turns, run console source 1 (singles + turns) m world =
      goOn console source 1 turns (turn console source cycles m world) := by
  induction cycles generalizing m with
  | zero => omega
  | succ rest ih =>
    by_cases running : (m.execute 1).2 = .running
    · cases rest with
      | zero =>
        refine ⟨1, Nat.one_pos, fun turns => ?_⟩
        rw [Nat.add_comm 1, run_succ]
      | succ rest =>
        obtain ⟨singles, pos, same⟩ := ih (Nat.succ_pos _) (m.execute 1).1
        refine ⟨singles + 1, Nat.succ_pos _, fun turns => ?_⟩
        rw [Nat.succ_add, run_succ, turn_running calm running]
        refine (same turns).trans (congrArg _ (turn_same calm ?_ world))
        rw [Machine.execute_add 1 (rest + 1) running, Nat.add_comm 1]
    · refine ⟨1, Nat.one_pos, fun turns => ?_⟩
      rw [Nat.add_comm 1, run_succ]
      refine congrArg _ (turn_same calm ?_ world)
      rw [Nat.add_comm rest 1, Machine.execute_event 1 rest running]

/-- What a host has done after some slices, a host that takes single cycles has done as well after
enough of them. -/
theorem run_eq_singles (calm : console.interrupted = pure false) (cycles : Nat)
    (positive : 0 < cycles) (turns : Nat) (m : Machine) (world : σ) :
    ∃ singles, turns ≤ singles ∧
      run console source cycles turns m world = run console source 1 singles m world := by
  induction turns generalizing m world with
  | zero => exact ⟨0, Nat.le_refl 0, rfl⟩
  | succ turns ih =>
    obtain ⟨singles, pos, same⟩ := run_turn calm cycles positive m world
    rw [run_succ]
    rcases turned : turn console source cycles m world with ⟨⟨after, _ | result⟩, next⟩
    · obtain ⟨more, enough, rest⟩ := ih after next
      refine ⟨singles + more, by omega, ?_⟩
      rw [same more, turned]
      exact rest
    · refine ⟨singles + turns, by omega, ?_⟩
      rw [same turns, turned]
      rfl

theorem run_finished {cycles turns : Nat} {m after : Machine} {result : Except Fault Unit}
    {world ending : σ}
    (finished : run console source cycles turns m world = ((after, some result), ending))
    (more : Nat) :
    run console source cycles (turns + more) m world = ((after, some result), ending) := by
  induction turns generalizing m world with
  | zero => cases finished
  | succ turns ih =>
    rw [run_succ] at finished
    rw [Nat.succ_add, run_succ]
    rcases turned : turn console source cycles m world with ⟨⟨next, _ | early⟩, between⟩
    · rw [turned] at finished
      exact ih finished
    · rw [turned] at finished
      exact finished

theorem run_finishes_iff (calm : console.interrupted = pure false) (cycles : Nat)
    (positive : 0 < cycles) (m after : Machine) (result : Except Fault Unit) (world ending : σ) :
    (∃ turns, run console source cycles turns m world = ((after, some result), ending)) ↔
      ∃ turns, run console source 1 turns m world = ((after, some result), ending) := by
  constructor
  · intro ⟨turns, finished⟩
    obtain ⟨singles, -, same⟩ := run_eq_singles calm cycles positive turns m world
    exact ⟨singles, same.symm.trans finished⟩
  · intro ⟨turns, finished⟩
    obtain ⟨singles, enough, same⟩ :=
      run_eq_singles calm cycles positive turns m world
    obtain ⟨more, rfl⟩ := Nat.exists_eq_add_of_le enough
    exact ⟨turns, same.trans (run_finished finished more)⟩

end Host

/-- Any two ways to cut a run into slices show the same events, each with the same machine; a longer
slice is two shorter ones; and the host's slices do what single cycles do to whatever its console
and its source act on. -/
theorem Machine.slices_do_not_show (m : Machine) :
    (∀ (answers : List Answer) (first second : Nat → Nat), (∀ i, 0 < first i) →
      (∀ i, 0 < second i) → ∀ turns, ∃ more,
        (Session.drive first turns ⟨m, answers, []⟩).log <+:
          (Session.drive second more ⟨m, answers, []⟩).log) ∧
    (∀ first second, (m.execute first).2 = .running →
      (m.execute first).1.execute second = m.execute (first + second)) ∧
    ∀ (σ : Type) (console : Console (StateM σ)) (source : Source (StateM σ)) (world : σ),
      console.interrupted = pure false →
      (∀ after result ending,
        (∃ turns, Host.run console source Host.slice turns m world =
          ((after, some result), ending)) ↔
        ∃ turns, Host.run console source 1 turns m world = ((after, some result), ending)) ∧
      ∀ turns, ∃ singles, turns ≤ singles ∧
        Host.run console source Host.slice turns m world =
          Host.run console source 1 singles m world := by
  have slice_pos : 0 < Host.slice := by decide
  refine ⟨?_, ?_, ?_⟩
  · intro answers first second first_pos second_pos turns
    exact Session.drive_log_prefix first second first_pos second_pos turns _
  · exact Machine.execute_add
  · intro σ console source world calm
    constructor
    · intro after result ending
      exact Host.run_finishes_iff calm Host.slice slice_pos m after result world ending
    · intro turns
      exact Host.run_eq_singles calm Host.slice slice_pos turns m world

/-- Two numbers printed, once to a log and once to the text of a console. -/
theorem Machine.slices_do_not_show_prints :
    let m := ({} : Machine).direct (.ofText "t" "'a' write 'b' write")
    let console : Console (StateM String) :=
      { write := fun text => do
          modify (· ++ text)
          return .ok ()
        readLine := fun _ => return .ok ""
        interrupted := pure false }
    let source : Source (StateM String) := fun _ => return .ok []
    ((m.execute 1).1.execute 3 = m.execute 4 ∧
      ∃ more, (Session.drive (fun _ => 3) 2 ⟨m, [], []⟩).log <+:
        (Session.drive (fun _ => 1) more ⟨m, [], []⟩).log) ∧
    ∃ singles, 3 ≤ singles ∧ (Host.run console source 1 singles m "").2 = "ab" := by
  intro m console source
  obtain ⟨logs, splits, hosts⟩ := slices_do_not_show m
  have printed : (Host.run console source Host.slice 3 m "").2 = "ab" := by decide +kernel
  refine ⟨⟨splits 1 3 (by decide +kernel), ?_⟩, ?_⟩
  · exact logs [] (fun _ => 3) (fun _ => 1) (fun _ => by decide) (fun _ => by decide) 2
  · obtain ⟨singles, enough, same⟩ := (hosts String console source "" rfl).2 3
    exact ⟨singles, enough, same ▸ printed⟩

end StackScript
