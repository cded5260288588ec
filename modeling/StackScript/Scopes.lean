import Std.Data.ExtTreeMap.Basic
import StackScript.Value

/-!
Variables. Scopes form a tree below the global scope, each known by a number: zero for the global
scope, and greater for a scope made later. A name belongs to the nearest scope that binds it.
-/
namespace StackScript

abbrev Bindings := Std.ExtTreeMap String Value

structure Scope where
  parent : Nat
  bindings : Bindings := ∅

/-- Scope `k + 1` stands at `k` in `inner`. -/
structure Scopes where
  global : Bindings := ∅
  inner : Array Scope := #[]

namespace Scopes

def depth (scopes : Scopes) : Nat :=
  scopes.inner.size + 1

def newest (scopes : Scopes) : Nat :=
  scopes.inner.size

def bindings? (scopes : Scopes) : Nat → Option Bindings
  | 0 => some scopes.global
  | k + 1 => scopes.inner[k]?.map Scope.bindings

def parent? (scopes : Scopes) : Nat → Option Nat
  | 0 => none
  | k + 1 => scopes.inner[k]?.map Scope.parent

def binds (scopes : Scopes) (scope : Nat) (name : String) : Bool :=
  match scopes.bindings? scope with
  | some bindings => bindings.contains name
  | none => false

def enter (scopes : Scopes) (parent : Nat) : Scopes :=
  { scopes with inner := scopes.inner.push { parent } }

/-- Takes away `scope` and all scopes made after it; the global scope always stays. -/
def leave (scopes : Scopes) (scope : Nat) : Scopes :=
  match scope with
  | 0 => scopes
  | k + 1 => { scopes with inner := scopes.inner.shrink k }

def unwind (scopes : Scopes) : Scopes :=
  { scopes with inner := #[] }

def clear (scopes : Scopes) : Scopes :=
  { scopes.unwind with global := ∅ }

def define (scopes : Scopes) (scope : Nat) (name : String) (value : Value) : Scopes :=
  match scope with
  | 0 => { scopes with global := scopes.global.insert name value }
  | k + 1 =>
    { scopes with inner := scopes.inner.modify k fun inner =>
        { inner with bindings := inner.bindings.insert name value } }

def owner? (scopes : Scopes) (name : String) (scope : Nat) : Option Nat :=
  if scopes.binds scope name then some scope
  else
    match scopes.parent? scope with
    | some parent => if parent < scope then scopes.owner? name parent else none
    | none => none
termination_by scope

def get? (scopes : Scopes) (scope : Nat) (name : String) : Option Value := do
  let owner ← scopes.owner? name scope
  let bindings ← scopes.bindings? owner
  bindings[name]?

def lookup (scopes : Scopes) (scope : Nat) (name : String) : Except Fault Value :=
  match scopes.get? scope name with
  | some value => .ok value
  | none => .error { kind := .unknownVariable, detail := name }

/-- Binds `name` where it is bound already, or else in `scope`. -/
def assign (scopes : Scopes) (scope : Nat) (name : String) (value : Value) : Scopes :=
  scopes.define ((scopes.owner? name scope).getD scope) name value

@[simp] theorem depth_enter (scopes : Scopes) (parent : Nat) :
    (scopes.enter parent).depth = scopes.depth + 1 := by
  simp [enter, depth]

@[simp] theorem newest_enter (scopes : Scopes) (parent : Nat) :
    (scopes.enter parent).newest = scopes.depth := by
  simp [enter, newest, depth]

@[simp] theorem depth_unwind (scopes : Scopes) : scopes.unwind.depth = 1 := rfl

@[simp] theorem depth_define (scopes : Scopes) (scope : Nat) (name : String) (value : Value) :
    (scopes.define scope name value).depth = scopes.depth := by
  cases scope with
  | zero => rfl
  | succ k => exact congrArg (· + 1) Array.size_modify

theorem leave_enter (scopes : Scopes) (parent : Nat) :
    (scopes.enter parent).leave scopes.depth = scopes := by
  simp [enter, leave, depth]

end Scopes
end StackScript
