import Std.Data.ExtTreeMap.Lemmas
import StackScript.Proofs.Nesting
import StackScript.Store

/-!
What the top level of a program brings in: its literals, its global variables and its functions, with
those of the programs that it attaches, in the order in which they are met. Nothing else counts there,
and nothing is called.
-/
namespace StackScript

structure Harvest where
  values : Stack Value := .empty
  globals : Bindings := ∅
  functions : Functions := ∅

namespace Harvest

def store (h : Harvest) : Store :=
  { values := h.values, scopes := { global := h.globals }, functions := h.functions }

inductive Outcome (σ : Type) where
  | done (h : Harvest) (world : σ)
  | failed (fault : Fault) (h : Harvest) (world : σ)
  /-- A program is attached at `place`, too deep inside others. -/
  | tooDeep (place : Option Location) (h : Harvest) (world : σ)

variable {σ : Type}

def Outcome.bind (outcome : Outcome σ) (next : Harvest → σ → Outcome σ) : Outcome σ :=
  match outcome with
  | .done h world => next h world
  | .failed fault h world => .failed fault h world
  | .tooDeep place h world => .tooDeep place h world

def Outcome.Shallow : Outcome σ → Prop
  | .tooDeep .. => False
  | _ => True

/-- What the operation at `address` brings in, and where the top level goes on after it. -/
def take (program : Program) (address : Nat) (h : Harvest) : Op → Except Fault (Nat × Harvest)
  | .push value => .ok (address + 1, { h with values := h.values.push value })
  | .define =>
    match program.op? (address + 1) with
    | some (.functionName name) =>
      match Block.find program address program.size false with
      | .ok block =>
        let body : Body := ⟨program, ⟨address + 2, block.close⟩⟩
        .ok (block.close + 1, { h with functions := h.functions.insert name body })
      | .error fault => .error fault
    | _ =>
      .error {
        kind := .malformed
        place := program.location? address
        detail := "FUNC WITHOUT NAME" }
  | .declare =>
    match program.op? (address + 1) with
    | some (.variableName name) =>
      .ok (address + 2, { h with globals := h.globals.insert name (.number 0.0) })
    | _ =>
      .error {
        kind := .malformed
        place := program.location? address
        detail := "VAR WITHOUT NAME" }
  -- branches and loops too are passed over operation by operation, so what stands inside them counts
  | _ => .ok (address + 1, h)

theorem take_next {program : Program} {address next : Nat} {h after : Harvest} {op : Op}
    (here : program.op? address = some op) (taken : take program address h op = .ok (next, after)) :
    address < next ∧ next ≤ program.size := by
  have exist := (program.op_isSome_iff address).mp (by rw [here]; rfl)
  cases op with
  | define =>
    simp only [take] at taken
    split at taken
    · split at taken
      · rename_i block found
        cases taken
        have encloses := Block.find_encloses here rfl found
        have after := encloses.returns.after
        have exist := encloses.exist
        omega
      · cases taken
    · cases taken
  | declare =>
    simp only [take] at taken
    split at taken
    · rename_i name named
      cases taken
      have exist := (program.op_isSome_iff (address + 1)).mp (by rw [named]; rfl)
      omega
    · cases taken
  | _ =>
    cases taken
    omega

/-- What `attach` at `place` brings in: the program whose path is the newest value is read and given to
`inclusion`, which is none where no more programs can be attached. -/
def attachment (read : String → σ → Except Fault Program × σ)
    (inclusion : Option (Program → Harvest → σ → Outcome σ)) (place : Option Location)
    (h : Harvest) (world : σ) : Outcome σ :=
  match h.values.top? with
  | none => .failed { kind := .stackUnderflow, place } h world
  | some path =>
    let h := { h with values := h.values.drop }
    match read path.text world with
    | (.error fault, world) => .failed (fault.locate place) h world
    | (.ok file, world) =>
      match inclusion with
      | none => .tooDeep place h world
      | some attached => attached file h world

def walk (read : String → σ → Except Fault Program × σ)
    (inclusion : Option (Program → Harvest → σ → Outcome σ)) (program : Program) (address : Nat)
    (h : Harvest) (world : σ) : Outcome σ :=
  match _here : program.op? address with
  | none => .done h world
  | some .attach =>
    (attachment read inclusion (program.location? address) h world).bind fun h world =>
      walk read inclusion program (address + 1) h world
  | some op =>
    match _taken : take program address h op with
    | .error fault => .failed fault h world
    | .ok (next, h) => walk read inclusion program next h world
termination_by program.size - address
decreasing_by
  · have exist := (program.op_isSome_iff address).mp (by rw [_here]; rfl)
    omega
  · have further := take_next _here _taken
    omega

section Equations

variable {read : String → σ → Except Fault Program × σ}
  {inclusion : Option (Program → Harvest → σ → Outcome σ)} {program : Program} {address : Nat}
  {h : Harvest} {world : σ}

theorem walk_end (here : program.op? address = none) :
    walk read inclusion program address h world = .done h world := by
  rw [walk]
  split <;> simp_all

theorem walk_attach (here : program.op? address = some .attach) :
    walk read inclusion program address h world =
      (attachment read inclusion (program.location? address) h world).bind fun h world =>
        walk read inclusion program (address + 1) h world := by
  rw [walk]
  split <;> simp_all

theorem walk_take {op : Op} (here : program.op? address = some op) (other : op = .attach → False) :
    walk read inclusion program address h world =
      match take program address h op with
      | .error fault => .failed fault h world
      | .ok (next, h) => walk read inclusion program next h world := by
  rw [walk]
  split
  · rename_i missing
    rw [here] at missing
    cases missing
  · rename_i same
    rw [here] at same
    exact (other (Option.some.inj same)).elim
  · rename_i found
    rw [here] at found
    cases found
    split <;> simp_all

end Equations

/-- Harvests a whole program; `room` more programs can be attached inside each other. -/
def harvest (read : String → σ → Except Fault Program × σ) (room : Nat) (program : Program) :
    Harvest → σ → Outcome σ :=
  match room with
  | 0 => walk read none program 0
  | room + 1 => walk read (some (harvest read room)) program 0

section Room

variable {read : String → σ → Except Fault Program × σ}
  {inclusion wider : Option (Program → Harvest → σ → Outcome σ)}

theorem attachment_room
    (agree : ∀ attached, inclusion = some attached → ∃ more, wider = some more ∧
      ∀ file h world, (attached file h world).Shallow → more file h world = attached file h world)
    {place : Option Location} {h : Harvest} {world : σ}
    (shallow : (attachment read inclusion place h world).Shallow) :
    attachment read wider place h world = attachment read inclusion place h world := by
  unfold attachment at shallow ⊢
  cases top : h.values.top? with
  | none => rfl
  | some path =>
    rcases found : read path.text world with ⟨fault | file, world⟩
    · simp only [found]
    · simp only [top, found] at shallow ⊢
      cases inclusion with
      | none => exact shallow.elim
      | some attached =>
        obtain ⟨more, rfl, same⟩ := agree attached rfl
        exact same file _ world shallow

theorem Outcome.shallow_bind {outcome : Outcome σ} {next : Harvest → σ → Outcome σ}
    (shallow : (outcome.bind next).Shallow) : outcome.Shallow := by
  cases outcome with
  | done | failed => trivial
  | tooDeep => exact shallow.elim

theorem walk_room
    (agree : ∀ attached, inclusion = some attached → ∃ more, wider = some more ∧
      ∀ file h world, (attached file h world).Shallow → more file h world = attached file h world)
    {program : Program} {address : Nat} {h : Harvest} {world : σ}
    (shallow : (walk read inclusion program address h world).Shallow) :
    walk read wider program address h world = walk read inclusion program address h world := by
  fun_induction walk read inclusion program address h world with
  | case1 address h world here => rw [walk_end here]
  | case2 address h world here ih =>
    rw [walk_attach here, attachment_room agree (Outcome.shallow_bind shallow)]
    cases gained : attachment read inclusion (program.location? address) h world with
    | done h world =>
      rw [gained] at shallow
      exact ih h world shallow
    | failed | tooDeep => rfl
  | case3 address h world op other here fault taken => rw [walk_take here other, taken]
  | case4 address h world op other here next h taken ih =>
    rw [walk_take here other, taken]
    exact ih shallow

/-- More room changes nothing where the room was enough. -/
theorem harvest_room {room : Nat} {program : Program} {h : Harvest} {world : σ}
    (shallow : (harvest read room program h world).Shallow) (more : Nat) :
    harvest read (room + more) program h world = harvest read room program h world := by
  induction room generalizing program h world with
  | zero =>
    cases more with
    | zero => rfl
    | succ more => exact walk_room (fun attached same => by cases same) shallow
  | succ room ih =>
    rw [Nat.succ_add]
    exact walk_room (fun attached same => by
      cases same
      exact ⟨_, rfl, fun file h world => ih⟩) shallow

end Room
end Harvest
end StackScript
