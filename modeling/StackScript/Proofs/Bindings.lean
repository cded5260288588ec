import Std.Data.ExtTreeMap.Lemmas
import StackScript.Proofs.ScopeChain

/-!
What one step does to the variables. A step may open a scope, end one, bind a name in the scope of
the frame that runs, or give a new value to the nearest binding of a name; `Rescopes` lists this, and
all the rest is derived from it.
-/
namespace StackScript
namespace Scopes

def value? (scopes : Scopes) (scope : Nat) (name : String) : Option Value :=
  (scopes.bindings? scope).bind fun bindings => bindings[name]?

variable (scopes : Scopes)

theorem binds_eq (scope : Nat) (name : String) :
    scopes.binds scope name = (scopes.value? scope name).isSome := by
  unfold binds value?
  cases scopes.bindings? scope with
  | none => rfl
  | some bindings => exact Std.ExtTreeMap.contains_eq_isSome_getElem?

theorem bindings_define (scope : Nat) (name : String) (value : Value) (k : Nat) :
    (scopes.define scope name value).bindings? k =
      if k = scope then (scopes.bindings? k).map (·.insert name value) else scopes.bindings? k := by
  cases scope with
  | zero => cases k <;> rfl
  | succ scope =>
    cases k with
    | zero => rfl
    | succ k =>
      simp only [define, bindings?, Array.getElem?_modify, Nat.add_right_cancel_iff]
      by_cases same : scope = k
      · simp only [same, ↓reduceIte, Option.map_map]
        rfl
      · simp only [same, Ne.symm same, ↓reduceIte]

theorem bindings_isSome {k : Nat} : (scopes.bindings? k).isSome ↔ k < scopes.depth := by
  cases k with
  | zero => simp [bindings?, depth]
  | succ k => simp [bindings?, depth]

theorem exist_of_binds {k : Nat} {name : String} (bound : scopes.binds k name = true) :
    k < scopes.depth := by
  rw [← bindings_isSome]
  unfold binds at bound
  cases there : scopes.bindings? k with
  | none =>
    rw [there] at bound
    cases bound
  | some bindings => rfl

theorem binds_beyond {k : Nat} (missing : ¬k < scopes.depth) (name : String) :
    scopes.binds k name = false := by
  cases bound : scopes.binds k name with
  | false => rfl
  | true => exact absurd (scopes.exist_of_binds bound) missing

theorem value_define_other {scope k : Nat} (other : k ≠ scope) (name : String) (value : Value)
    (read : String) : (scopes.define scope name value).value? k read = scopes.value? k read := by
  simp only [value?, bindings_define, other, ↓reduceIte]

theorem value_define {scope : Nat} (exist : scope < scopes.depth) (name : String) (value : Value)
    (read : String) : (scopes.define scope name value).value? scope read =
      if read = name then some value else scopes.value? scope read := by
  obtain ⟨bindings, there⟩ := Option.isSome_iff_exists.mp (scopes.bindings_isSome.mpr exist)
  simp only [value?, bindings_define, there, ↓reduceIte, Option.map_some, Option.bind_some,
    Std.ExtTreeMap.getElem?_insert, Std.LawfulEqCmp.compare_eq_iff_eq, eq_comm (a := name)]

theorem define_binds {k : Nat} (exist : k < scopes.depth) (scope : Nat) (name : String)
    (value : Value) {read : String} (bound : scopes.binds k read = true) :
    (scopes.define scope name value).binds k read = true := by
  rw [binds_eq] at bound ⊢
  by_cases same : k = scope
  · subst same
    rw [scopes.value_define exist]
    split
    · rfl
    · exact bound
  · rwa [scopes.value_define_other same]

theorem value_enter (parent : Nat) {k : Nat} (old : k < scopes.depth) (name : String) :
    (scopes.enter parent).value? k name = scopes.value? k name := by
  cases k with
  | zero => rfl
  | succ k =>
    simp only [depth] at old
    simp only [value?, bindings?, enter, Array.getElem?_push, show ¬k = scopes.inner.size by omega,
      ↓reduceIte]

theorem value_leave (scope : Nat) {k : Nat} (left : k < (scopes.leave scope).depth)
    (name : String) : (scopes.leave scope).value? k name = scopes.value? k name := by
  cases scope with
  | zero => rfl
  | succ scope =>
    simp only [leave, depth, Array.size_shrink] at left
    rw [value?, (scopes.older_leave (by omega)).2, value?]

theorem value_unwind {k : Nat} (left : k < scopes.unwind.depth) (name : String) :
    scopes.unwind.value? k name = scopes.value? k name := by
  rw [depth_unwind] at left
  rw [Nat.lt_one_iff.mp left]
  rfl

/-- The first scope on the way up from `scope` that binds the name. -/
inductive Nearest (scopes : Scopes) (name : String) : Nat → Nat → Prop where
  | here {scope : Nat} (bound : scopes.binds scope name = true) : Nearest scopes name scope scope
  | above {scope parent owner : Nat} (unbound : scopes.binds scope name = false)
      (up : scopes.parent? scope = some parent) (later : Nearest scopes name parent owner) :
      Nearest scopes name scope owner

namespace Nearest

variable {scopes : Scopes} {name : String} {scope owner : Nat}

theorem binds (nearest : scopes.Nearest name scope owner) : scopes.binds owner name = true := by
  induction nearest with
  | here bound => exact bound
  | above unbound up later ih => exact ih

theorem unique {other : Nat} (nearest : scopes.Nearest name scope owner)
    (second : scopes.Nearest name scope other) : owner = other := by
  induction nearest with
  | here bound =>
    cases second with
    | here => rfl
    | above unbound => cases bound.symm.trans unbound
  | above unbound up later ih =>
    cases second with
    | here bound => cases bound.symm.trans unbound
    | above _ up' later' =>
      cases up.symm.trans up'
      exact ih later'

theorem of_owner (found : scopes.owner? name scope = some owner) :
    scopes.Nearest name scope owner := by
  induction scope using Nat.strongRecOn with
  | ind scope ih =>
    unfold owner? at found
    split at found
    · cases found
      exact .here ‹_›
    · split at found
      · split at found
        · exact .above (Bool.eq_false_iff.mpr ‹_›) ‹_› (ih _ ‹_› found)
        · cases found
      · cases found

/-- Where every parent is older than its children, the search goes all the way. -/
theorem owner_eq (ordered : scopes.Ordered) (nearest : scopes.Nearest name scope owner) :
    scopes.owner? name scope = some owner := by
  induction nearest with
  | here bound => rw [owner?, if_pos bound]
  | @above scope parent owner unbound up later ih =>
    rw [owner?, if_neg (by simp [unbound]), up]
    -- the search goes on only to a scope with a smaller number
    simp only [ordered scope parent up, ↓reduceIte]
    exact ih

end Nearest
end Scopes

theorem Op.assign_performs {site : Site} {store after : Store} {control : Control}
    (performed : Op.assign.perform site store = .ok control after) :
    ∃ target value rest, store.values.items = target :: value :: rest ∧
      after.scopes = store.scopes.assign site.scope target.text value := by
  obtain ⟨⟨items, size, size_eq⟩, scopes, functions⟩ := store
  cases items with
  | nil => cases performed
  | cons target items =>
    cases items with
    | nil => cases performed
    | cons value rest =>
      cases performed
      exact ⟨target, value, rest, rfl, rfl⟩

theorem Op.assign_eq {site : Site} {store : Store} {target value : Value} {rest : List Value}
    (items : store.values.items = target :: value :: rest) :
    Op.assign.perform site store = .ok .proceed
      { store with
        values := .ofList rest
        scopes := store.scopes.assign site.scope target.text value } := by
  obtain ⟨values, scopes, functions⟩ := store
  cases (Stack.eq_of_items items : values = .ofList (target :: value :: rest))
  rfl

namespace Machine

/-- The next step gives `name` the value `value` in `scope`, the nearest one that binds it. -/
def Assigns (m : Machine) (scope : Nat) (name : String) (value : Value) : Prop :=
  ∃ frame target rest, m.frames.top? = some frame ∧ frame.next < frame.span.stop ∧
    frame.kind.isTopLevel = false ∧ frame.program.op? frame.next = some .assign ∧
    m.store.values.items = target :: value :: rest ∧ target.text = name ∧
    m.store.scopes.Nearest name frame.scope scope

theorem Assigns.unique {m : Machine} {scope other : Nat} {name read : String} {value found : Value}
    (one : m.Assigns scope name value) (two : m.Assigns other read found) :
    scope = other ∧ name = read ∧ value = found := by
  obtain ⟨frame, target, rest, top, -, -, -, items, text, nearest⟩ := one
  obtain ⟨frame', target', rest', top', -, -, -, items', text', nearest'⟩ := two
  cases top.symm.trans top'
  cases items.symm.trans items'
  cases text.symm.trans text'
  exact ⟨nearest.unique nearest', rfl, rfl⟩

/-- What a step of a frame in the scope `here` makes of the scopes. -/
inductive Rescopes (m : Machine) (here : Nat) : Scopes → Prop where
  | same : Rescopes m here m.store.scopes
  | binds (name : String) (value : Value) :
      Rescopes m here (m.store.scopes.define here name value)
  | assigns (scope : Nat) (name : String) (value : Value) (assigning : m.Assigns scope name value) :
      Rescopes m here (m.store.scopes.define scope name value)
  | enters : Rescopes m here (m.store.scopes.enter here)
  | leaves : Rescopes m here (m.store.scopes.leave here)
  | unwinds : Rescopes m here m.store.scopes.unwind

variable {m : Machine} {frame : Frame} {below : List Frame}

theorem works_rescopes {op : Op} {control : Control} {store : Store}
    (frames : m.frames = .ofList (frame :: below)) (inside : frame.next < frame.span.stop)
    (here : frame.program.op? frame.next = some op)
    (due : (frame.kind.isTopLevel && !op.isTopLevel) = false)
    (performed : op.perform (siteOf frame) m.store = .ok control store) :
    m.Rescopes frame.scope store.scopes := by
  cases Op.effect_of_perform performed with
  | works | takesBranch | skipsBranch | skipsLoop | defines => exact .same
  | beginsLoop | calls => exact .enters
  | declares => exact .binds _ _
  | assigns =>
    obtain ⟨target, value, rest, items, after⟩ := Op.assign_performs performed
    rw [after]
    unfold Scopes.assign
    cases owner : m.store.scopes.owner? target.text (siteOf frame).scope with
    | none => exact .binds _ _
    | some scope =>
      have top : m.frames.top? = some frame := by rw [frames, Stack.top_ofList]
      have free : frame.kind.isTopLevel = false := by simpa [Op.isTopLevel] using due
      exact .assigns scope target.text value
        ⟨frame, target, rest, top, inside, free, here, items, rfl, .of_owner owner⟩

theorem moves_rescopes {after : Machine} {event : Option Event}
    (frames : m.frames = .ofList (frame :: below)) (moved : m.Moves frame below after event) :
    m.Rescopes frame.scope after.store.scopes := by
  cases moved with
  | passes | repeats | starts => exact .same
  | misses | doubts | chokes => exact .unwinds
  | fails op fault store inside here due performed =>
    cases Op.effect_of_perform performed with
    | fails => exact .unwinds
  | works op store inside here due control within performed =>
    exact works_rescopes frames inside here due performed
  | enters op resume inner store inside here due performed =>
    exact works_rescopes frames inside here due performed
  | overflows op resume inner store inside here due performed =>
    -- a scope made for the block that does not open goes with all the others
    cases Op.effect_of_perform performed with
    | works control values stays => cases stays
    | takesBranch | beginsLoop | calls => exact .unwinds
  | closes =>
    dsimp only
    split
    · exact .leaves
    · exact .same

theorem step_rescopes (frames : m.frames = .ofList (frame :: below)) :
    m.Rescopes frame.scope m.step.1.store.scopes :=
  moves_rescopes frames (step_moves frames)

/-- The step that assigns gives the value. -/
theorem step_assigned {scope : Nat} {name : String} {value : Value}
    (inStep : InStep m.store.scopes m.frames.items) (assigning : m.Assigns scope name value) :
    m.step.1.store.scopes.value? scope name = some value := by
  obtain ⟨frame, target, rest, top, inside, free, here, items, rfl, nearest⟩ := assigning
  have owner := nearest.owner_eq inStep.ordered
  obtain ⟨below, frames⟩ := Stack.top_eq_some top
  have performs := @Op.assign_eq (siteOf frame) m.store target value rest items
  have moved := step_moves frames
  generalize m.step.1 = after, m.step.2 = event at moved
  cases moved with
  | passes op _ found skipped => simp [free] at skipped
  | misses _ missing => cases here.symm.trans missing
  | fails op fault store _ found _ performed | enters op _ _ store _ found _ performed
  | overflows op _ _ store _ found _ performed =>
    cases here.symm.trans found
    cases performs.symm.trans performed
  | works op store _ found _ control _ performed =>
    cases here.symm.trans found
    cases performs.symm.trans performed
    have exist := m.store.scopes.exist_of_binds nearest.binds
    have found : m.store.scopes.owner? target.text (siteOf frame).scope = some scope := owner
    simp only [Scopes.assign, found, Option.getD_some]
    rw [Scopes.value_define _ exist, if_pos rfl]
  | repeats outside | doubts _ outside | closes outside | starts _ outside | chokes _ outside =>
    omega

namespace Rescopes

variable {here k : Nat} {after : Scopes}

theorem value (change : m.Rescopes here after) (other : k ≠ here) (old : k < m.store.scopes.depth)
    (left : k < after.depth) (name : String) :
    after.value? k name = m.store.scopes.value? k name ∨
      ∃ value, m.Assigns k name value ∧ after.value? k name = some value := by
  cases change with
  | same => exact .inl rfl
  | binds read value => exact .inl (Scopes.value_define_other _ other read value name)
  | assigns scope read value assigning =>
    by_cases same : k = scope ∧ name = read
    · obtain ⟨rfl, rfl⟩ := same
      refine .inr ⟨value, assigning, ?_⟩
      rw [Scopes.value_define _ old, if_pos rfl]
    · refine .inl ?_
      by_cases owner : k = scope
      · subst owner
        rw [Scopes.value_define _ old, if_neg fun read => same ⟨rfl, read⟩]
      · exact Scopes.value_define_other _ owner read value name
  | enters => exact .inl (Scopes.value_enter _ _ old name)
  | leaves => exact .inl (Scopes.value_leave _ _ left name)
  | unwinds => exact .inl (Scopes.value_unwind _ left name)

theorem names (change : m.Rescopes here after) (other : k ≠ here) (old : k < m.store.scopes.depth)
    (left : k < after.depth) (name : String) :
    after.binds k name = m.store.scopes.binds k name := by
  rcases change.value other old left name with same | ⟨value, assigning, given⟩
  · rw [Scopes.binds_eq, Scopes.binds_eq, same]
  · obtain ⟨frame, target, rest, -, -, -, -, -, -, nearest⟩ := assigning
    rw [Scopes.binds_eq, given, nearest.binds]
    rfl

theorem grows (change : m.Rescopes here after) (old : k < m.store.scopes.depth)
    (left : k < after.depth) {name : String} (bound : m.store.scopes.binds k name = true) :
    after.binds k name = true := by
  cases change with
  | same => exact bound
  | binds read value => exact Scopes.define_binds _ old here read value bound
  | assigns scope read value => exact Scopes.define_binds _ old scope read value bound
  | enters => rwa [Scopes.binds_eq, Scopes.value_enter _ _ old, ← Scopes.binds_eq]
  | leaves => rwa [Scopes.binds_eq, Scopes.value_leave _ _ left, ← Scopes.binds_eq]
  | unwinds => rwa [Scopes.binds_eq, Scopes.value_unwind _ left, ← Scopes.binds_eq]

end Rescopes
end Machine
end StackScript
