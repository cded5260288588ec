import StackScript.Block
import StackScript.Machine.Frame

/-!
What single operations do: their effect on the store, and how the run goes on after them.
-/
namespace StackScript

inductive Request where
  /-- A line of input. -/
  | line
  /-- The program at a path. -/
  | program (path : String)
  deriving DecidableEq, Repr

/-- How a run goes on after an operation: at the address after it, if nothing else is said. -/
inductive Control where
  | proceed
  | jump (address : Nat)
  | enter (resume : Nat) (frame : Frame)
  | print (text : String)
  | ask (request : Request)
  deriving DecidableEq

def Control.resume (address : Nat) : Control → Nat
  | .jump target => target
  | .enter resume _ => resume
  | _ => address + 1

structure Site where
  program : Program
  address : Nat
  limit : Nat
  scope : Nat

namespace Site

def operand? (site : Site) : Option Op :=
  if site.address + 1 < site.limit then site.program.op? (site.address + 1) else none

def block (site : Site) (branches : Bool) : Change Block :=
  .require (Block.find site.program site.address site.limit branches)

def frame (site : Site) (kind : Frame.Kind) (span : Span) (scope : Nat) : Frame :=
  .start kind site.program span scope

end Site

namespace Op

def performBranch (site : Site) : Change Control := do
  let condition ← Change.require (← Change.pop).isTruthy
  let block ← site.block true
  let span? := if condition then some block.body else block.alternative
  match span? with
  | some span => return .enter (block.close + 1) (site.frame .block span site.scope)
  | none => return .jump (block.close + 1)

def performLoop (site : Site) : Change Control := do
  let block ← site.block false
  if ← Change.require (← get).wantsLoop then
    Change.onScopes fun scopes => scopes.enter site.scope
    let scope := (← get).scopes.newest
    return .enter (block.close + 1) (site.frame .loop block.body scope)
  else return .jump (block.close + 1)

def performDefine (site : Site) : Change Control := do
  match site.operand? with
  | some (.functionName name) =>
    let block ← site.block false
    let body : Body := ⟨site.program, ⟨site.address + 2, block.close⟩⟩
    modify fun store => { store with functions := store.functions.insert name body }
    return .jump (block.close + 1)
  | _ => throw { kind := .malformed, detail := "FUNC WITHOUT NAME" }

def performDeclare (site : Site) : Change Control := do
  match site.operand? with
  | some (.variableName name) =>
    Change.onScopes fun scopes => scopes.define site.scope name (.number 0.0)
    return .jump (site.address + 2)
  | _ => throw { kind := .malformed, detail := "VAR WITHOUT NAME" }

/-- A function is called; else a name that is about to be assigned stands for itself, and any other
for the value of its variable. -/
def performWord (site : Site) (name : String) : Change Control := do
  match (← get).functions[name]? with
  | some body =>
    Change.onScopes fun scopes => scopes.enter site.scope
    let scope := (← get).scopes.newest
    return .enter (site.address + 1) (.start .call body.program body.span scope)
  | none =>
    if site.operand? = some .assign then
      Change.push (.string name)
      return .proceed
    else
      match (← get).scopes.get? site.scope name with
      | some value =>
        Change.push value
        return .proceed
      | none => throw { kind := .unknownWord, detail := name }

def perform (site : Site) : Op → Change Control
  | .push value => do
    Change.push value
    return .proceed
  | .dup => do
    let n ← Change.require (← Change.top).toNumber
    Change.push (.number n)
    return .proceed
  | .pop => do
    let _ ← Change.pop
    return .proceed
  | .roll => do
    Change.onValues Stack.roll
    return .proceed
  | .apply operator => do
    let (lhs, rhs) ← Change.onValues Stack.popPair
    Change.push (← Change.require (operator.apply lhs rhs))
    return .proceed
  | .not => do
    let value ← Change.pop
    Change.push (← Change.require value.not)
    return .proceed
  | .dump => do
    let n ← Change.require (← Change.pop).toNumber
    return .print (printNumber n)
  | .write => do
    let value ← Change.pop
    return .print value.text
  | .input => return .ask .line
  | .attach => do
    let path ← Change.pop
    return .ask (.program path.text)
  | .branch => performBranch site
  | .loop => performLoop site
  | .define => performDefine site
  | .declare => performDeclare site
  | .assign => do
    let name ← Change.pop
    let value ← Change.pop
    Change.onScopes fun scopes => scopes.assign site.scope name.text value
    return .proceed
  | .word name => performWord site name
  | .otherwise | .close | .functionName _ | .variableName _ => return .proceed

end Op
end StackScript
