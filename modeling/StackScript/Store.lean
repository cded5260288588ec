import StackScript.Program
import StackScript.Scopes
import StackScript.Stack

/-!
What running operations share: the values, the variables and the functions.
-/
namespace StackScript

structure Body where
  program : Program
  span : Span
  deriving DecidableEq

abbrev Functions := Std.ExtTreeMap String Body

structure Store where
  values : Stack Value := .empty
  scopes : Scopes := {}
  functions : Functions := ∅

/-- A change of the store. One that fails keeps what it did before. -/
abbrev Change := EStateM Fault Store

namespace Change

def onValues {α : Type} (change : EStateM Fault (Stack Value) α) : Change α := fun store =>
  match change store.values with
  | .ok a values => .ok a { store with values }
  | .error fault values => .error fault { store with values }

def require {α : Type} : Except Fault α → Change α
  | .ok a => pure a
  | .error fault => throw fault

def push (value : Value) : Change Unit :=
  modify fun store => { store with values := store.values.push value }

def top : Change Value := onValues Stack.top

def pop : Change Value := onValues Stack.pop

def onScopes (f : Scopes → Scopes) : Change Unit :=
  modify fun store => { store with scopes := f store.scopes }

end Change

/-- Whether a loop goes on: the top value is true. Without a value it ends. -/
def Store.wantsLoop (store : Store) : Except Fault Bool :=
  match store.values.top? with
  | some value => value.isTruthy
  | none => .ok false

end StackScript
