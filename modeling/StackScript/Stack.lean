import StackScript.Fault

/-!
Stacks. The size is kept beside the items, so that a limit on it costs nothing to check. Operations
that can fail keep what they had taken off before they failed.
-/
namespace StackScript

/-- The newest item comes first. -/
structure Stack (α : Type) where
  items : List α
  size : Nat
  size_eq : size = items.length

namespace Stack

variable {α : Type}

theorem eq_of_items {s t : Stack α} (same : s.items = t.items) : s = t := by
  obtain ⟨items, size, size_eq⟩ := s
  obtain ⟨items', size', size_eq'⟩ := t
  subst same size_eq size_eq'
  rfl

def empty : Stack α := ⟨[], 0, rfl⟩

instance : Inhabited (Stack α) := ⟨empty⟩

def ofList (items : List α) : Stack α := ⟨items, items.length, rfl⟩

def isEmpty (s : Stack α) : Bool := s.size == 0

def top? (s : Stack α) : Option α := s.items.head?

/-- The newest items, at most `count` of them, oldest first. -/
def newest (s : Stack α) (count : Nat) : List α := (s.items.take count).reverse

def push (a : α) : Stack α → Stack α
  | ⟨items, size, size_eq⟩ => ⟨a :: items, size + 1, by simp [size_eq]⟩

def modifyTop (f : α → α) : Stack α → Stack α
  | ⟨[], size, size_eq⟩ => ⟨[], size, size_eq⟩
  | ⟨a :: rest, size, size_eq⟩ => ⟨f a :: rest, size, by simp [size_eq]⟩

def drop : Stack α → Stack α
  | ⟨[], size, size_eq⟩ => ⟨[], size, size_eq⟩
  | ⟨_ :: rest, size, size_eq⟩ => ⟨rest, size - 1, by simp [size_eq]⟩

@[simp] theorem items_empty : (empty : Stack α).items = [] := rfl

@[simp] theorem items_ofList (items : List α) : (ofList items).items = items := rfl

@[simp] theorem items_push (a : α) (s : Stack α) : (s.push a).items = a :: s.items := rfl

@[simp] theorem items_modifyTop (f : α → α) (s : Stack α) :
    (s.modifyTop f).items = s.items.modifyHead f := by
  obtain ⟨_ | ⟨a, rest⟩, size, size_eq⟩ := s <;> rfl

@[simp] theorem items_drop (s : Stack α) : s.drop.items = s.items.tail := by
  obtain ⟨_ | ⟨a, rest⟩, size, size_eq⟩ := s <;> rfl

theorem isEmpty_iff (s : Stack α) : s.isEmpty ↔ s.items = [] := by
  simp [isEmpty, s.size_eq]

def capacity : Nat := 65535

def pushLimited (complaint : String) (a : α) : EStateM Fault (Stack α) Unit := fun s =>
  if capacity ≤ s.size then .error { kind := .outOfMemory, detail := complaint } s
  else .ok () (s.push a)

def top : EStateM Fault (Stack α) α := fun s =>
  match s.top? with
  | some a => .ok a s
  | none => .error { kind := .stackUnderflow } s

def pop : EStateM Fault (Stack α) α := fun s =>
  match s.top? with
  | some a => .ok a s.drop
  | none => .error { kind := .stackUnderflow } s

/-- The two newest items, the older one first. -/
def popPair : EStateM Fault (Stack α) (α × α) := do
  let second ← pop
  let first ← pop
  return (first, second)

def roll : EStateM Fault (Stack α) Unit := fun s =>
  match s with
  | ⟨first :: second :: rest, size, size_eq⟩ =>
    .ok () ⟨second :: first :: rest, size, by simp [size_eq]⟩
  | s => .error (.shallowStack s.size) s

def inspect (text : α → String) (s : Stack α) : String :=
  "[" ++ ", ".intercalate (s.items.reverse.map text) ++ "]"

end Stack
end StackScript
