import Mathlib.Data.Multiset.DershowitzManna
import StackScript.Proofs.Lifecycle

/-!
The top level of a program comes to an end, whatever it attaches, even itself. An attached program may
be long and attach others, but it lies one frame higher, and there is only so much room for frames.
So the work is measured by a multiset in which lower frames count for more: each turn takes something
away from it, and adds at most what counts for less.
-/
namespace StackScript

inductive Loading : List Frame → Prop where
  | entry {frame : Frame} (kind : frame.kind = .entry) (scope : frame.scope = 0) : Loading [frame]
  | attached {frame : Frame} {below : List Frame} (kind : frame.kind = .attached)
      (lower : Loading below) : Loading (frame :: below)

/-- What a frame above `below` counts for: the less, the higher it lies. -/
def weightAbove (below : List Frame) : ℕ :=
  2 * (Stack.capacity - below.length)

def workload : List Frame → Multiset ℕ
  | [] => 0
  | frame :: below =>
    .replicate (frame.span.stop - frame.next + 1) (weightAbove below) + workload below

theorem weightAbove_cons (frame : Frame) {below : List Frame}
    (fits : below.length < Stack.capacity) :
    weightAbove (frame :: below) + 1 < weightAbove below := by
  unfold weightAbove
  rw [List.length_cons]
  omega

/-- What is taken away counts for more than all that comes in its place. -/
theorem trades {rest extra : Multiset ℕ} {count weight : ℕ} (taken : 0 < count)
    (lesser : ∀ label ∈ extra, label < weight) :
    (rest + extra).IsDershowitzMannaLT (rest + .replicate count weight) := by
  have member : weight ∈ Multiset.replicate count weight :=
    Multiset.mem_replicate.mpr ⟨taken.ne', rfl⟩
  refine ⟨rest, extra, .replicate count weight, ?_, rfl, rfl, ?_⟩
  · intro none
    rw [none] at member
    exact Multiset.notMem_zero _ member
  · intro label among
    exact ⟨weight, member, lesser label among⟩

namespace Loading

variable {frame : Frame} {below frames : List Frame}

theorem resume (loading : Loading (frame :: below)) (next : Nat) :
    Loading (frame.resumeAt next :: below) := by
  cases loading with
  | entry kind scope => exact .entry kind scope
  | attached kind lower => exact .attached kind lower

theorem top (loading : Loading (frame :: below)) : frame.kind.isTopLevel := by
  cases loading with
  | entry kind => rw [kind]; rfl
  | attached kind => rw [kind]; rfl

theorem entry_mem (loading : Loading frames) : ∃ frame ∈ frames, frame.kind = .entry := by
  induction loading with
  | entry kind => exact ⟨_, List.mem_cons_self .., kind⟩
  | attached kind lower ih =>
    obtain ⟨frame, member, entry⟩ := ih
    exact ⟨frame, List.mem_cons_of_mem _ member, entry⟩

end Loading

theorem Op.goes_on {op : Op} {site : Site} {store after : Store} {control : Control}
    (here : site.program.op? site.address = some op)
    (performed : op.perform site store = .ok control after) :
    site.address < control.resume site.address := by
  have behind {branches : Bool} {block : Block} (opens : op.opensBlock)
      (found : Block.find site.program site.address site.limit branches = .ok block) :
      site.address < block.close + 1 := by
    have after := (Block.find_encloses here opens found).returns.after
    omega
  cases Op.effect_of_perform performed with
  | works control values stays =>
    rw [Control.resume_stays stays]
    exact Nat.lt_succ_self _
  | takesBranch block span values found => exact behind rfl found
  | skipsBranch block values found => exact behind rfl found
  | beginsLoop block found => exact behind rfl found
  | skipsLoop block found => exact behind rfl found
  | defines name block named found => exact behind rfl found
  | declares => exact Nat.lt_add_of_pos_right (by decide)
  | assigns => exact Nat.lt_succ_self _
  | calls => exact Nat.lt_succ_self _

theorem Op.top_level_stays {op : Op} {site : Site} {store after : Store} {resume : Nat}
    {inner : Frame} (top : op.isTopLevel) :
    op.perform site store ≠ .ok (.enter resume inner) after := by
  intro performed
  cases Op.effect_of_perform performed with
  | works control values stays => cases stays
  | takesBranch | beginsLoop | calls => cases top

namespace Machine

def AtTopLevel (m : Machine) : Prop :=
  ∃ frame ∈ m.frames.items, frame.kind = .entry

/-- How the top level is left: `main` starts in its place, or nothing follows it, or a fault is
reported, at once or by the next execution. -/
inductive Leaves (m after : Machine) : Prop where
  | main (body : Body) (defined : m.store.functions["main"]? = some body)
      (cycle : m.execute 1 = (after, .running))
      (started : after.frames = .ofList [.start .block body.program body.span 0])
  | done (cycle : m.execute 1 = (after, .stopped)) (ended : after.isRunning = false)
  | failed (fault : Fault) (cycle : m.execute 1 = (after, .failed fault))
      (ended : after.isRunning = false)
  | refused (fault : Fault) (asked : m.request ≠ none) (ended : after.isRunning = false)
      (stored : ∀ cycles, (after.execute cycles).2 = .failed fault)

theorem Leaves.gone {m after : Machine} (leaves : m.Leaves after) : ¬after.AtTopLevel := by
  have idle (ended : after.isRunning = false) : ¬after.AtTopLevel := by
    rintro ⟨frame, member, -⟩
    rw [(not_running_iff after).mp ended] at member
    cases member
  cases leaves with
  | main body defined cycle started =>
    rintro ⟨frame, member, entry⟩
    rw [started] at member
    cases List.mem_singleton.mp member
    cases entry
  | done cycle ended => exact idle ended
  | failed fault cycle ended => exact idle ended
  | refused fault asked ended => exact idle ended

structure Loads (m : Machine) : Prop where
  noFault : m.fault = none
  undisturbed : m.interrupted = false
  frames : Loading m.frames.items
  fits : m.frames.items.length ≤ Stack.capacity

/-- What is left to do at the top level. An answer may bring a frame above the newest one, and waiting
for it counts for a little more than that frame. -/
def workload (m : Machine) : Multiset ℕ :=
  StackScript.workload m.frames.items +
    if m.request.isSome then {weightAbove m.frames.items + 1} else 0

variable {m after : Machine} {frame : Frame} {below : List Frame}

theorem Loads.load (m : Machine) (program : Program) : (m.load program).Loads :=
  ⟨rfl, rfl, .entry rfl rfl, show 1 ≤ Stack.capacity by decide⟩

theorem Loads.atTopLevel (loads : m.Loads) : m.AtTopLevel :=
  loads.frames.entry_mem

theorem workload_quiet (m : Machine) (noRequest : m.request = none) :
    m.workload = StackScript.workload m.frames.items := by
  rw [workload, noRequest]
  exact add_zero _

theorem workload_resume (frames : m.frames = .ofList (frame :: below)) (noRequest : m.request = none)
    (fits : below.length < Stack.capacity) {next : Nat} (inside : frame.next < frame.span.stop)
    (onward : frame.next < next) (resumed : after.frames = .ofList (frame.resumeAt next :: below)) :
    after.workload.IsDershowitzMannaLT m.workload := by
  obtain ⟨done, taken, total⟩ : ∃ done, 0 < done ∧
      frame.span.stop - frame.next + 1 = frame.span.stop - next + 1 + done :=
    ⟨frame.span.stop - frame.next - (frame.span.stop - next), by omega, by omega⟩
  have higher := weightAbove_cons (frame.resumeAt next) fits
  rw [workload_quiet m noRequest, frames, Stack.items_ofList, StackScript.workload, total,
    Multiset.replicate_add, add_right_comm]
  rw [workload, resumed, Stack.items_ofList, StackScript.workload]
  refine trades taken ?_
  intro label among
  split at among
  · rw [Multiset.mem_singleton.mp among]
    exact higher
  · exact absurd among (Multiset.notMem_zero label)

theorem workload_close (frames : m.frames = .ofList (frame :: below)) (noRequest : m.request = none)
    (closed : after.frames = .ofList below) (quiet : after.request = none) :
    after.workload.IsDershowitzMannaLT m.workload := by
  have less := @trades (StackScript.workload below) 0 _ (weightAbove below)
    (Nat.succ_pos (frame.span.stop - frame.next)) (by simp)
  rw [add_zero, add_comm] at less
  rw [workload_quiet m noRequest, workload_quiet after quiet, frames, closed]
  exact less

/-- What an answer brings counts for less than the request for it. -/
theorem workload_answer (asked : m.request ≠ none) (quiet : after.request = none)
    {brought : Multiset ℕ} (lesser : ∀ label ∈ brought, label ≤ weightAbove m.frames.items)
    (total : StackScript.workload after.frames.items =
      StackScript.workload m.frames.items + brought) :
    after.workload.IsDershowitzMannaLT m.workload := by
  rw [workload_quiet after quiet, total, workload, if_pos (Option.isSome_iff_ne_none.mpr asked),
    ← Multiset.replicate_one]
  refine trades Nat.one_pos ?_
  intro label among
  exact Nat.lt_succ_of_le (lesser label among)

theorem moves_loading {event : Option Event} (moved : m.Moves frame below after event)
    (ready : m.Ready) (frames : m.frames = .ofList (frame :: below)) (loading : Loading (frame :: below))
    (fits : below.length < Stack.capacity) (cycle : m.execute 1 = (after, event.getD .running)) :
    m.Leaves after ∨ after.Loads ∧ after.workload.IsDershowitzMannaLT m.workload := by
  obtain ⟨noFault, noRequest, -, undisturbed⟩ := ready
  have top := loading.top
  cases moved with
  | passes op inside here skipped =>
    refine .inr ⟨⟨noFault, undisturbed, loading.resume _, fits⟩, ?_⟩
    exact workload_resume frames noRequest fits inside (Nat.lt_succ_self _) rfl
  | misses => exact .inl (.failed _ cycle rfl)
  | fails => exact .inl (.failed _ cycle rfl)
  | works op store inside here due control within performed =>
    refine .inr ⟨⟨noFault, undisturbed, loading.resume _, fits⟩, ?_⟩
    exact workload_resume frames noRequest fits inside (Op.goes_on here performed) rfl
  | enters op resume inner store inside here due performed =>
    rw [top] at due
    exact absurd performed (Op.top_level_stays (by simpa using due))
  | overflows op resume inner store inside here due performed =>
    exact .inl (.failed _ cycle rfl)
  | repeats outside loop | doubts fault outside loop =>
    rw [loop] at top
    cases top
  | closes outside spent alone =>
    cases loading with
    | entry kind scope => exact .inl (.done cycle rfl)
    | attached kind lower =>
      refine .inr ⟨⟨noFault, undisturbed, lower, fits.le⟩, ?_⟩
      exact workload_close frames noRequest rfl noRequest
  | starts body outside entry main room =>
    cases loading with
    | entry kind scope => exact .inl (.main body main cycle (by rw [scope]))
    | attached kind => cases kind.symm.trans entry
  | chokes => exact .inl (.failed _ cycle rfl)

theorem loads_cycle (loads : m.Loads) (noRequest : m.request = none) :
    m.Leaves (m.execute 1).1 ∨
      (m.execute 1).1.Loads ∧ (m.execute 1).1.workload.IsDershowitzMannaLT m.workload := by
  obtain ⟨noFault, undisturbed, loading, fits⟩ := loads
  obtain ⟨frame, below, frames⟩ : ∃ frame below, m.frames = .ofList (frame :: below) := by
    cases items : m.frames.items with
    | nil =>
      rw [items] at loading
      cases loading
    | cons frame below => exact ⟨frame, below, Stack.eq_of_items items⟩
  rw [frames] at loading fits
  have ready : m.Ready := ⟨noFault, noRequest, running_of_frames frames, undisturbed⟩
  have cycle := execute_one ready (Prod.eta m.step).symm
  rw [cycle]
  exact moves_loading (step_moves frames) ready frames loading fits cycle

theorem fail_leaves (asked : m.request ≠ none) (fault : Fault) : m.Leaves (m.fail fault) :=
  .refused _ asked rfl fun _ => rfl

theorem loads_answer (loads : m.Loads) {answer : Answer} (received : m.receive? answer = some after) :
    m.Leaves after ∨ after.Loads ∧ after.workload.IsDershowitzMannaLT m.workload := by
  obtain ⟨noFault, undisturbed, loading, fits⟩ := loads
  unfold receive? at received
  split at received
  · rename_i line asked
    cases received
    have pending : m.request ≠ none := by simp [asked]
    simp only [enter, asked]
    refine .inr ⟨⟨noFault, undisturbed, loading, fits⟩, ?_⟩
    refine workload_answer pending rfl ?_ (add_zero _).symm
    simp
  · rename_i path program asked
    cases received
    have pending : m.request ≠ none := by simp [asked]
    rw [attach_eq asked program m.frames.items (Stack.eq_of_items rfl)]
    split
    · exact .inl (fail_leaves pending _)
    · rename_i room
      refine .inr ⟨⟨noFault, undisturbed, .attached rfl loading, Nat.lt_of_not_le room⟩, ?_⟩
      refine workload_answer pending rfl ?_ (add_comm _ _)
      intro label among
      exact (Multiset.eq_of_mem_replicate among).le
  · rename_i asked
    cases received
    exact .inl (fail_leaves (by simp [asked]) _)
  · cases received

section Runs

variable {run : Nat → Machine}
  (turns : ∀ n, (run n).AtTopLevel → run (n + 1) = ((run n).execute 1).1 ∨
    ∃ answer, (run n).receive? answer = some (run (n + 1)))
include turns

theorem waits_for_answer {n k : Nat} (loads : (run n).Loads) (asked : (run n).request ≠ none)
    (later : (run (n + k)).request = none) :
    ∃ i, (∀ j ≤ i, run (n + j) = run n) ∧
      ∃ answer, (run n).receive? answer = some (run (n + i + 1)) := by
  induction k generalizing n with
  | zero => exact absurd later asked
  | succ k ih =>
    rcases turns n loads.atTopLevel with cycle | answer
    · have same : run (n + 1) = run n := by
        obtain ⟨request, pending⟩ := Option.ne_none_iff_exists'.mp asked
        rw [cycle]
        simp only [execute, loads.noFault, pending]
      rw [← same] at loads asked
      rw [← Nat.add_assoc, Nat.add_right_comm] at later
      obtain ⟨i, still, answer⟩ := ih loads asked later
      refine ⟨i + 1, ?_, ?_⟩
      · intro j within
        cases j with
        | zero => rfl
        | succ j =>
          rw [← Nat.add_assoc, Nat.add_right_comm, still j (Nat.le_of_succ_le_succ within), same]
      · rwa [same, Nat.add_right_comm n 1 i] at answer
    · refine ⟨0, ?_, answer⟩
      intro j within
      rw [Nat.le_zero.mp within, Nat.add_zero]

variable (answered : ∀ n, (run n).AtTopLevel → (run n).request ≠ none →
  ∃ k > n, (run k).request = none)
include answered

/-- Sooner or later the top level is left, or some of its work is done. -/
theorem next_change {n : Nat} (loads : (run n).Loads) : ∃ i, (∀ j ≤ i, run (n + j) = run n) ∧
    ((run n).Leaves (run (n + i + 1)) ∨ (run (n + i + 1)).Loads ∧
      (run (n + i + 1)).workload.IsDershowitzMannaLT (run n).workload) := by
  by_cases asked : (run n).request = none
  · refine ⟨0, ?_, ?_⟩
    · intro j within
      rw [Nat.le_zero.mp within, Nat.add_zero]
    · rcases turns n loads.atTopLevel with cycle | ⟨answer, received⟩
      · rw [Nat.add_zero, cycle]
        exact loads_cycle loads asked
      · exact loads_answer loads received
  · obtain ⟨k, more, later⟩ := answered n loads.atTopLevel asked
    obtain ⟨waited, rfl⟩ := Nat.exists_eq_add_of_le more.le
    obtain ⟨i, still, answer, received⟩ := waits_for_answer turns loads asked later
    exact ⟨i, still, loads_answer loads received⟩

theorem loads_ends (n : Nat) (loads : (run n).Loads) :
    ∃ k, (∀ i ≤ k, (run (n + i)).Loads) ∧ (run (n + k)).Leaves (run (n + k + 1)) := by
  have founded := InvImage.wf (fun n => (run n).workload) Multiset.wellFounded_isDershowitzMannaLT
  -- turns that only wait change nothing; `next_change` passes over them to one that lowers the measure
  induction n using founded.induction with
  | h n ih =>
    obtain ⟨i, still, leaves | ⟨more, less⟩⟩ := next_change turns answered loads
    · refine ⟨i, ?_, ?_⟩
      · intro j within
        rwa [still j within]
      · rwa [still i le_rfl]
    · obtain ⟨k, loading, leaves⟩ := ih (n + i + 1) less more
      refine ⟨i + 1 + k, ?_, ?_⟩
      · intro j within
        rcases Nat.lt_or_ge i j with beyond | early
        · obtain ⟨rest, rfl⟩ := Nat.exists_eq_add_of_le (show i + 1 ≤ j from beyond)
          have last := loading rest (Nat.le_of_add_le_add_left within)
          rwa [Nat.add_assoc n i 1, Nat.add_assoc] at last
        · rwa [still j early]
      · rwa [Nat.add_assoc n i 1, Nat.add_assoc n] at leaves

end Runs

/-- Whatever is attached, the top level of a loaded program comes to its end. There is no infinite run
of single cycles and answers at the top level, if every request is answered some time. -/
theorem top_level_ends (m : Machine) (program : Program) (run : Nat → Machine)
    (begins : run 0 = m.load program)
    (turns : ∀ n, (run n).AtTopLevel → run (n + 1) = ((run n).execute 1).1 ∨
      ∃ answer, (run n).receive? answer = some (run (n + 1)))
    (answered : ∀ n, (run n).AtTopLevel → (run n).request ≠ none →
      ∃ k > n, (run k).request = none) :
    ∃ n, (∀ k ≤ n, (run k).AtTopLevel) ∧ (run n).Leaves (run (n + 1)) ∧
      ¬(run (n + 1)).AtTopLevel := by
  have loads : (run 0).Loads := begins ▸ .load m program
  obtain ⟨n, loading, leaves⟩ := loads_ends turns answered 0 loads
  rw [Nat.zero_add] at leaves
  refine ⟨n, ?_, leaves, leaves.gone⟩
  intro k within
  have before := loading k within
  rw [Nat.zero_add] at before
  exact before.atTopLevel

def serve (program : Program) (m : Machine) : Machine :=
  match m.request with
  | some (.program _) => m.attach program
  | some .line => m.fail { kind := .inputPastEnd }
  | none => (m.execute 1).1

theorem serve_turn (program : Program) (m : Machine) :
    m.serve program = (m.execute 1).1 ∨ ∃ answer, m.receive? answer = some (m.serve program) := by
  unfold serve receive?
  cases m.request with
  | none => exact .inl rfl
  | some request =>
    cases request with
    | line => exact .inr ⟨.fault { kind := .inputPastEnd }, rfl⟩
    | program path => exact .inr ⟨.program program, rfl⟩

theorem serve_answers (program : Program) {m : Machine} (asked : m.request ≠ none) :
    (m.serve program).request = none := by
  unfold serve
  cases asking : m.request with
  | none => exact absurd asking asked
  | some request =>
    cases request with
    | line => rfl
    | program path =>
      dsimp only
      rw [attach_eq asking program m.frames.items (Stack.eq_of_items rfl)]
      split <;> rfl

/-- A program that attaches itself. -/
theorem top_level_ends_itself :
    let program := Program.ofText "t" "'t' attach"
    let run := fun n => (serve program)^[n] (({} : Machine).load program)
    (∀ n, run (n + 1) = ((run n).execute 1).1 ∨
      ∃ answer, (run n).receive? answer = some (run (n + 1))) ∧
    (∀ n, (run n).request ≠ none → ∃ k > n, (run k).request = none) ∧
    (run 2).request = some (.program "t") ∧
    ∃ n, (∀ k ≤ n, (run k).AtTopLevel) ∧ (run n).Leaves (run (n + 1)) ∧
      ¬(run (n + 1)).AtTopLevel := by
  intro program run
  have next : ∀ n, run (n + 1) = (run n).serve program := fun n =>
    Function.iterate_succ_apply' (serve program) n _
  have turns : ∀ n, run (n + 1) = ((run n).execute 1).1 ∨
      ∃ answer, (run n).receive? answer = some (run (n + 1)) := by
    intro n
    rw [next]
    exact serve_turn program (run n)
  have answered : ∀ n, (run n).request ≠ none → ∃ k > n, (run k).request = none := by
    intro n asked
    refine ⟨n + 1, Nat.lt_succ_self n, ?_⟩
    rw [next]
    exact serve_answers program asked
  have asks : (run 2).request = some (.program "t") := by decide +kernel
  exact ⟨turns, answered, asks, top_level_ends {} program run rfl (fun n _ => turns n)
    fun n _ => answered n⟩

end Machine
end StackScript
