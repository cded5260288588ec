import StackScript.Proofs.Lifecycle

/-!
What a failure costs. An operation that fails may have taken its operands off the values, and what it
did to the scopes goes with the run; functions and global variables are as they were.
-/
namespace StackScript

/-- `after` has the functions, the global variables and all but the newest values of `before`. -/
structure Store.Survives (before after : Store) : Prop where
  functions : after.functions = before.functions
  globals : after.scopes.global = before.scopes.global
  values : ∃ lost, lost ≤ 2 ∧ after.values.items = before.values.items.drop lost

namespace Store.Survives

theorem unwind (store : Store) : store.Survives { store with scopes := store.scopes.unwind } :=
  ⟨rfl, rfl, 0, by omega, rfl⟩

theorem unwound {before after : Store} (survives : before.Survives after) :
    before.Survives { after with scopes := after.scopes.unwind } :=
  ⟨survives.functions, survives.globals, survives.values⟩

end Store.Survives

namespace Op

variable {site : Site} {store after : Store} {op : Op}

theorem branch_pops {control : Control}
    (performed : performBranch site store = .ok control after) :
    after = { store with values := store.values.drop } := by
  simp only [performBranch, Change.bind_eq, Change.pop_eq, Change.require_eq, Site.block] at performed
  cases top : store.values.top? with
  | none =>
    rw [top] at performed
    cases performed
  | some condition =>
    cases truthy : condition.isTruthy with
    | error fault =>
      simp only [top, truthy] at performed
      cases performed
    | ok truth =>
      cases found : Block.find site.program site.address site.limit true with
      | error fault =>
        simp only [top, truthy, found] at performed
        cases performed
      | ok block =>
        simp only [top, truthy, found] at performed
        cases chosen : (if truth = true then some block.body else block.alternative) with
        | none =>
          rw [chosen] at performed
          cases performed
          rfl
        | some span =>
          rw [chosen] at performed
          cases performed
          rfl

theorem enters_survives {resume : Nat} {inner : Frame}
    (performed : op.perform site store = .ok (.enter resume inner) after) :
    store.Survives after := by
  have effect := effect_of_perform performed
  cases effect with
  | works control values stays => cases stays
  | takesBranch =>
    rw [branch_pops performed]
    exact ⟨rfl, rfl, 1, by omega, drop_items_one _⟩
  | beginsLoop => exact ⟨rfl, rfl, 0, by omega, rfl⟩
  | calls => exact ⟨rfl, rfl, 0, by omega, rfl⟩

theorem fails_survives {fault : Fault} (performed : op.perform site store = .error fault after) :
    store.Survives after := by
  cases effect_of_perform performed with
  | fails values lost few left raised => exact ⟨rfl, rfl, lost, few, left⟩

end Op

namespace Machine

variable {m : Machine}

theorem moves_survive {after : Machine} {frame : Frame} {below : List Frame} {fault : Fault}
    (moved : m.Moves frame below after (some (.failed fault)))
    (fits : below.length < Stack.capacity) : m.store.Survives after.store := by
  generalize reported : some (Event.failed fault) = event at moved
  cases moved with
  | misses | doubts => exact .unwind m.store
  | fails op fault store inside here due performed => exact (Op.fails_survives performed).unwound
  | overflows op resume inner store inside here due performed =>
    exact (Op.enters_survives performed).unwound
  | chokes body outside entry main full => omega
  | works op store inside here due control => cases control <;> cases reported
  | closes => split at reported <;> cases reported
  | passes | enters | repeats | starts => cases reported

theorem step_survives {fault : Fault} (steady : m.Steady)
    (failed : m.step.2 = some (.failed fault)) : m.store.Survives m.step.1.store := by
  cases top : m.frames.top? with
  | none =>
    simp only [step, top] at failed
    cases failed
  | some frame =>
    obtain ⟨below, frames⟩ := Stack.top_eq_some top
    have moved := step_moves frames
    have fits := steady.fits
    rw [frames, Stack.items_ofList, List.length_cons] at fits
    rw [failed] at moved
    exact moves_survive moved fits

theorem execute_survives {fault : Fault} (steady : m.Steady)
    (failed : (m.execute 1).2 = .failed fault) : m.store.Survives (m.execute 1).1.store := by
  by_cases ready : m.Ready
  · have survives := @step_survives m fault steady
    rw [execute_ready ready] at failed ⊢
    rcases stepped : m.step with ⟨after, _ | event⟩
    · rw [run_quiet stepped] at failed
      cases failed
    · rw [stepped] at survives
      rw [run_loud stepped] at failed ⊢
      exact survives (congrArg some failed)
  · rw [(execute_waiting ready 1).1]
    unfold execute
    split
    · exact ⟨rfl, rfl, 0, by omega, rfl⟩
    · exact ⟨rfl, rfl, 0, by omega, rfl⟩
    · split
      · exact .unwind m.store
      · split <;> exact ⟨rfl, rfl, 0, by omega, rfl⟩

/-- A cycle that ends in a fault leaves the functions and the global variables as they were, and of
the values, newest first, all but at most the first two. A request that cannot be met leaves the
values as well. -/
theorem failures_spare_the_store (reached : m.Reachable) :
    (∀ fault, (m.execute 1).2 = .failed fault →
      (m.execute 1).1.store.functions = m.store.functions ∧
      (m.execute 1).1.store.scopes.global = m.store.scopes.global ∧
      ∃ lost, lost ≤ 2 ∧
        (m.execute 1).1.store.values.items = m.store.values.items.drop lost) ∧
      ∀ fault, m.request ≠ none →
        (m.fail fault).store.functions = m.store.functions ∧
        (m.fail fault).store.scopes.global = m.store.scopes.global ∧
        (m.fail fault).store.values = m.store.values := by
  constructor
  · intro fault failed
    obtain ⟨functions, globals, values⟩ := execute_survives (reachable_steady reached) failed
    exact ⟨functions, globals, values⟩
  · intro fault asked
    exact ⟨rfl, rfl, rfl⟩

/-- A sum in a loop, with one value on the stack. -/
theorem failures_spare_the_store_sum :
    let m := (({} : Machine).after (.direct (.ofText "t" "var x 1 while + end"))).after (.execute 3)
    let fault : Fault := { kind := .stackUnderflow, place := some ⟨"t", 1, ⟨14, 15⟩⟩ }
    m.Reachable ∧ (m.execute 1).2 = .failed fault ∧
      (m.execute 1).1.store.scopes.global = m.store.scopes.global ∧
      ∃ lost, lost ≤ 2 ∧
        (m.execute 1).1.store.values.items = m.store.values.items.drop lost := by
  intro m fault
  have reached : m.Reachable := (Reachable.initial.call (.direct _)).call (.execute 3)
  have failed : (m.execute 1).2 = .failed fault := by decide +kernel
  have spared := (failures_spare_the_store reached).1 fault failed
  exact ⟨reached, failed, spared.2⟩

end Machine
end StackScript
