import StackScript.Proofs.Lifecycle

/-!
What a new start forgets. A whole program runs as on a machine that has done nothing yet. Statements
that run directly find the values, the global variables and the functions, and of all that was before
nothing else.
-/
namespace StackScript

theorem Scopes.get_global (scopes : Scopes) (name : String) :
    scopes.get? 0 name = scopes.global[name]? := by
  unfold get? owner?
  by_cases bound : scopes.binds 0 name
  · rw [if_pos bound]
    rfl
  · rw [if_neg bound]
    have absent : name ∉ scopes.global := by
      simpa [binds, bindings?] using bound
    exact (Std.ExtTreeMap.getElem?_eq_none absent).symm

namespace Machine

structure View where
  running : Bool
  values : List Value
  global? : String → Option Value
  functions : Functions

def view (m : Machine) : View :=
  ⟨m.isRunning, m.store.values.items, m.global?, m.store.functions⟩

/-- No calls tell the two machines apart, neither by what their executions report nor by what there is
to be seen afterwards. -/
def Indistinguishable (m other : Machine) : Prop :=
  ∀ calls, m.reports calls = other.reports calls ∧
    (m.afterAll calls).view = (other.afterAll calls).view

structure Legacy where
  values : List Value
  globals : Bindings
  functions : Functions

def legacy (m : Machine) : Legacy :=
  ⟨m.store.values.items, m.store.scopes.global, m.store.functions⟩

theorem Indistinguishable.of_eq {m other : Machine} (same : m = other) : m.Indistinguishable other := by
  intro calls
  rw [same]
  exact ⟨rfl, rfl⟩

theorem Indistinguishable.legacy_eq {m other : Machine} (alike : m.Indistinguishable other) :
    m.legacy = other.legacy := by
  have seen : m.view = other.view := (alike []).2
  injection seen with _ values globals functions
  have bindings : m.store.scopes.global = other.store.scopes.global := by
    refine Std.ExtTreeMap.ext_getElem? fun name => ?_
    rw [← Scopes.get_global, ← Scopes.get_global]
    exact congrFun globals name
  rw [legacy, legacy, values, bindings, functions]

theorem load_eq (m : Machine) (program : Program) : m.load program = ({} : Machine).load program :=
  rfl

theorem direct_eq {m other : Machine} (same : m.legacy = other.legacy) (program : Program) :
    m.direct program = other.direct program := by
  injection same with values globals functions
  have values : m.store.values = other.store.values := Stack.eq_of_items values
  simp only [direct, stop, Scopes.unwind, values, globals, functions]

theorem legacy_direct (m : Machine) (program : Program) : (m.direct program).legacy = m.legacy :=
  rfl

/-- A program that is loaded runs as on a new machine, whatever the machine did or waited for before.
Statements that run directly leave values, global variables and functions as they find them, and these
three alone decide what can ever be noticed of the run. -/
theorem starts_forget_the_last_run (m other : Machine) (program : Program) :
    (m.load program).Indistinguishable (({} : Machine).load program) ∧
      (m.direct program).legacy = m.legacy ∧
      ((m.direct program).Indistinguishable (other.direct program) ↔ m.legacy = other.legacy) := by
  refine ⟨.of_eq (load_eq m program), legacy_direct m program, ?_, ?_⟩
  · intro alike
    have same := alike.legacy_eq
    rwa [legacy_direct, legacy_direct] at same
  · intro same
    exact .of_eq (direct_eq same program)

end Machine
end StackScript
