import StackScript.Proofs.Bindings

/-!
Variables in any tree of scopes, whatever machine made it. The way from a scope to the global one is
stated by the parents alone; a name belongs to the first scope on this way that binds it. The order of
the scopes, which the search relies on to end, is derived from how scopes are made.
-/
namespace StackScript
namespace Scopes

/-- The scopes that come about from fresh ones. Parents and scopes that are named have to exist, and
only the last scope is given back. -/
inductive Made : Scopes → Prop where
  | fresh : Made {}
  | enter {scopes : Scopes} (before : Made scopes) {parent : Nat} (exist : parent < scopes.depth) :
      Made (scopes.enter parent)
  | leave {scopes : Scopes} (before : Made scopes) {scope : Nat} (last : scope + 1 = scopes.depth) :
      Made (scopes.leave scope)
  | define {scopes : Scopes} (before : Made scopes) {scope : Nat} (exist : scope < scopes.depth)
      (name : String) (value : Value) : Made (scopes.define scope name value)
  | assign {scopes : Scopes} (before : Made scopes) {scope : Nat} (exist : scope < scopes.depth)
      (name : String) (value : Value) : Made (scopes.assign scope name value)
  | clear {scopes : Scopes} (before : Made scopes) : Made scopes.clear
  | unwind {scopes : Scopes} (before : Made scopes) : Made scopes.unwind

/-- The way up from a scope: each is followed by its parent, and the last one has none. -/
inductive Path (scopes : Scopes) : Nat → List Nat → Prop where
  | ends {scope : Nat} (top : scopes.parent? scope = none) : Path scopes scope [scope]
  | rises {scope parent : Nat} {path : List Nat} (up : scopes.parent? scope = some parent)
      (later : Path scopes parent path) : Path scopes scope (scope :: path)

variable {scopes : Scopes} {scope : Nat} {path : List Nat}

theorem parent_exists (inner : 0 < scope) (exist : scope < scopes.depth) :
    ∃ parent, scopes.parent? scope = some parent := by
  cases scope with
  | zero => omega
  | succ k =>
    simp only [depth, Nat.add_lt_add_iff_right] at exist
    exact ⟨scopes.inner[k].parent, by simp [parent?, exist]⟩

theorem Ordered.of_parents {after : Scopes} (ordered : scopes.Ordered)
    (same : ∀ k, after.parent? k = scopes.parent? k) : after.Ordered := by
  intro child parent up
  rw [same] at up
  exact ordered child parent up

theorem ordered_alone (alone : scopes.inner = #[]) : scopes.Ordered := by
  intro child parent up
  have exist := lt_depth_of_parent up
  simp only [depth, alone, Array.size_empty] at exist
  cases Nat.lt_one_iff.mp exist
  cases up

theorem Made.ordered (made : Made scopes) : scopes.Ordered := by
  induction made with
  | fresh => exact ordered_alone rfl
  | @enter scopes before above exist ih =>
    intro child parent up
    rw [parent_enter] at up
    split at up
    · cases up
      omega
    · exact ih child parent up
  | @leave scopes before scope last ih =>
    intro child parent up
    rcases Nat.eq_zero_or_pos scope with rfl | positive
    · exact ih child parent up
    · have exist := lt_depth_of_parent up
      rw [depth_leave scopes positive (by omega)] at exist
      rw [(scopes.older_leave exist).1] at up
      exact ih child parent up
  | define before exist name value ih => exact ih.of_parents (parent_define _ _ _ _)
  | assign before exist name value ih => exact ih.of_parents (parent_define _ _ _ _)
  | clear before ih => exact ordered_alone rfl
  | unwind before ih => exact ordered_alone rfl

namespace Path

theorem exists_path (ordered : scopes.Ordered) (exist : scope < scopes.depth) :
    ∃ path, scopes.Path scope path := by
  induction scope using Nat.strongRecOn with
  | ind scope ih =>
    rcases Nat.eq_zero_or_pos scope with rfl | inner
    · exact ⟨[0], .ends rfl⟩
    · obtain ⟨parent, up⟩ := parent_exists inner exist
      have less := ordered scope parent up
      obtain ⟨path, later⟩ := ih parent less (by omega)
      exact ⟨scope :: path, .rises up later⟩

theorem le_start (ordered : scopes.Ordered) (way : scopes.Path scope path) :
    ∀ k ∈ path, k ≤ scope := by
  induction way with
  | ends => simp
  | rises up later ih =>
    intro k member
    have less := ordered _ _ up
    rcases List.mem_cons.mp member with rfl | behind
    · exact Nat.le_refl k
    · exact Nat.le_trans (ih k behind) (Nat.le_of_lt less)

theorem descends (ordered : scopes.Ordered) (way : scopes.Path scope path) :
    path.Pairwise (· > ·) := by
  induction way with
  | ends => exact List.pairwise_singleton ..
  | rises up later ih =>
    refine List.Pairwise.cons ?_ ih
    intro k behind
    exact Nat.lt_of_le_of_lt (later.le_start ordered k behind) (ordered _ _ up)

theorem reaches_global (ordered : scopes.Ordered) (exist : scope < scopes.depth)
    (way : scopes.Path scope path) : path.getLast? = some 0 := by
  induction way with
  | @ends scope top =>
    rcases Nat.eq_zero_or_pos scope with rfl | inner
    · rfl
    · obtain ⟨parent, up⟩ := parent_exists inner exist
      cases top.symm.trans up
  | rises up later ih =>
    have less := ordered _ _ up
    rw [List.getLast?_cons, ih (by omega)]
    rfl

theorem unique {path' : List Nat} (way : scopes.Path scope path) (way' : scopes.Path scope path') :
    path = path' := by
  induction way generalizing path' with
  | ends top =>
    cases way' with
    | ends => rfl
    | rises up => cases top.symm.trans up
  | rises up later ih =>
    cases way' with
    | ends top => cases top.symm.trans up
    | rises up' later' =>
      cases up.symm.trans up'
      rw [ih later']

theorem of_parents {after : Scopes} (same : ∀ k, after.parent? k = scopes.parent? k)
    (way : scopes.Path scope path) : after.Path scope path := by
  induction way with
  | ends top => exact .ends ((same _).trans top)
  | rises up later ih => exact .rises ((same _).trans up) ih

theorem owner_eq (ordered : scopes.Ordered) (way : scopes.Path scope path) (name : String) :
    scopes.owner? name scope = path.find? (scopes.binds · name) := by
  induction way with
  | @ends scope top =>
    rw [owner?, top]
    cases bound : scopes.binds scope name <;> simp [bound]
  | @rises scope parent path up later ih =>
    rw [owner?, up]
    cases bound : scopes.binds scope name <;> simp [bound, ordered scope parent up, ih]

theorem get_eq (ordered : scopes.Ordered) (way : scopes.Path scope path) (name : String) :
    scopes.get? scope name = path.findSome? (scopes.value? · name) := by
  have value (owner : Nat) :
      (do let bindings ← scopes.bindings? owner; bindings[name]?) = scopes.value? owner name := rfl
  rw [get?, way.owner_eq ordered]
  simp only [Option.bind_eq_bind] at value ⊢
  simp only [value]
  clear way
  induction path with
  | nil => rfl
  | cons k path ih =>
    rw [List.find?_cons, List.findSome?_cons, binds_eq]
    cases bound : scopes.value? k name with
    | none => exact ih
    | some found => exact bound

theorem lookup_eq (ordered : scopes.Ordered) (way : scopes.Path scope path) (name : String) :
    scopes.lookup scope name = match path.findSome? (scopes.value? · name) with
      | some value => .ok value
      | none => .error { kind := .unknownVariable, detail := name } := by
  rw [← way.get_eq ordered]
  rfl

end Path

def target (scopes : Scopes) (scope : Nat) (path : List Nat) (name : String) : Nat :=
  (path.find? (scopes.binds · name)).getD scope

theorem target_exists (ordered : scopes.Ordered) (exist : scope < scopes.depth)
    (way : scopes.Path scope path) (name : String) : scopes.target scope path name < scopes.depth := by
  unfold target
  cases found : path.find? (scopes.binds · name) with
  | none => exact exist
  | some owner =>
    have before := way.le_start ordered owner (List.mem_of_find?_eq_some found)
    exact Nat.lt_of_le_of_lt before exist

section Assign

variable (ordered : scopes.Ordered) (exist : scope < scopes.depth) (way : scopes.Path scope path)
  (name : String) (value : Value)
include ordered way

theorem assign_eq : scopes.assign scope name value =
    scopes.define (scopes.target scope path name) name value := by
  rw [assign, way.owner_eq ordered, target]

include exist

theorem value_assign (k : Nat) (read : String) : (scopes.assign scope name value).value? k read =
    if k = scopes.target scope path name ∧ read = name then some value
    else scopes.value? k read := by
  rw [assign_eq ordered way]
  by_cases same : k = scopes.target scope path name
  · subst same
    rw [value_define _ (target_exists ordered exist way name)]
    simp
  · rw [value_define_other _ same, if_neg fun both => same both.1]

/-- What is seen after an assignment: the value where the scope that it changed is the first to bind
the name, and everywhere else what was seen before. -/
theorem lookup_assign {other : Nat} {path' : List Nat} (way' : scopes.Path other path')
    (read : String) :
    let after := scopes.assign scope name value
    after.lookup other read =
      if read = name ∧ path'.find? (after.binds · name) = some (scopes.target scope path name)
      then .ok value else scopes.lookup other read := by
  intro after
  have parents : ∀ k, after.parent? k = scopes.parent? k := parent_define _ _ _ _
  have values (k : Nat) := value_assign ordered exist way name value k read
  rw [(way'.of_parents parents).lookup_eq (ordered.of_parents parents), way'.lookup_eq ordered]
  by_cases same : read = name
  · subst same
    simp only [true_and, and_true] at values ⊢
    clear way'
    induction path' with
    | nil => simp
    | cons k path' ih =>
      rw [List.findSome?_cons, List.findSome?_cons, List.find?_cons, binds_eq, values k]
      by_cases owner : k = scopes.target scope path read
      · simp [owner]
      · rw [if_neg owner]
        cases scopes.value? k read with
        | none => exact ih
        | some found => simp [owner]
  · simp only [same, and_false, false_and, ↓reduceIte] at values ⊢
    simp only [after, values]

theorem first_assign : path.find? ((scopes.assign scope name value).binds · name) =
    some (scopes.target scope path name) := by
  have binds (k : Nat) : (scopes.assign scope name value).binds k name =
      (k == scopes.target scope path name || scopes.binds k name) := by
    rw [binds_eq, value_assign ordered exist way, binds_eq]
    by_cases same : k = scopes.target scope path name <;> simp [same]
  cases found : path.find? (scopes.binds · name) with
  | some owner =>
    have target : scopes.target scope path name = owner := by rw [target, found, Option.getD_some]
    have bound : scopes.binds owner name = true := by simpa using List.find?_some found
    rw [target] at binds ⊢
    have same : ((scopes.assign scope name value).binds · name) = (scopes.binds · name) := by
      funext k
      rw [binds]
      by_cases same : k = owner <;> simp [same, bound]
    rw [same, found]
  | none =>
    have target : scopes.target scope path name = scope := by rw [target, found, Option.getD_none]
    rw [target] at binds ⊢
    cases way <;> simp [binds]

end Assign

theorem leave_define (scopes : Scopes) {scope : Nat} (inner : 0 < scope) (name : String)
    (value : Value) : (scopes.define scope name value).leave scope = scopes.leave scope := by
  cases scope with
  | zero => omega
  | succ k =>
    simp only [define, leave, Scopes.mk.injEq, true_and]
    apply Array.ext_getElem?
    intro i
    simp only [Array.shrink_eq_take, Array.take_eq_extract, Array.getElem?_extract,
      Array.getElem?_modify, Array.size_modify]
    split
    · rw [if_neg (by omega)]
    · rfl

theorem leave_defines (scopes : Scopes) {scope : Nat} (inner : 0 < scope)
    (bound : List (String × Value)) :
    (bound.foldl (fun scopes (name, value) => scopes.define scope name value) scopes).leave scope =
      scopes.leave scope := by
  induction bound generalizing scopes with
  | nil => rfl
  | cons binding bound ih =>
    rw [List.foldl_cons, ih, leave_define _ inner]

/-- A name belongs to the nearest scope that binds it. Parents lead down to the global scope; a search
gives the first value on the way, or a fault; an assignment changes this one binding or makes one in the
scope it starts from, and is seen from just those scopes that find the changed scope first. A scope that
is given back leaves nothing behind, whatever was bound in it. -/
theorem names_belong_to_their_nearest_scope (made : Made scopes) :
    (∀ scope < scopes.depth, ∃ path, scopes.Path scope path ∧
      (path.Pairwise (· > ·) ∧ path.getLast? = some 0 ∧ ∀ k ∈ path, k < scopes.depth) ∧
      (∀ name, scopes.lookup scope name = match path.findSome? (scopes.value? · name) with
        | some value => .ok value
        | none => .error { kind := .unknownVariable, detail := name }) ∧
      ∀ name value,
        let owner := (path.find? (scopes.binds · name)).getD scope
        let after := scopes.assign scope name value
        (after.depth = scopes.depth ∧ (∀ k, after.parent? k = scopes.parent? k) ∧
          ∀ k read, after.value? k read =
            if k = owner ∧ read = name then some value else scopes.value? k read) ∧
        after.lookup scope name = .ok value ∧
        ∀ other path', scopes.Path other path' → ∀ read, after.lookup other read =
          if read = name ∧ path'.find? (after.binds · name) = some owner then .ok value
          else scopes.lookup other read) ∧
      ∀ parent < scopes.depth, ∀ bound : List (String × Value),
        (bound.foldl (fun inner (name, value) => inner.define scopes.depth name value)
          (scopes.enter parent)).leave scopes.depth = scopes := by
  have ordered := made.ordered
  constructor
  · intro scope exist
    obtain ⟨path, way⟩ := Path.exists_path ordered exist
    have inside : ∀ k ∈ path, k < scopes.depth := fun k member =>
      Nat.lt_of_le_of_lt (way.le_start ordered k member) exist
    refine ⟨path, way, ⟨way.descends ordered, way.reaches_global ordered exist, inside⟩,
      way.lookup_eq ordered, ?_⟩
    intro name value owner after
    have seen (other : Nat) (path' : List Nat) (way' : scopes.Path other path') :=
      lookup_assign ordered exist way name value way'
    have first := first_assign ordered exist way name value
    refine ⟨⟨depth_define .., parent_define _ _ _ _, value_assign ordered exist way name value⟩, ?_,
      seen⟩
    exact (seen scope path way name).trans (if_pos ⟨rfl, first⟩)
  · intro parent exist bound
    have inner : 0 < scopes.depth := Nat.succ_pos _
    rw [leave_defines _ inner, leave_enter]

/-- A name in the global scope and in one of two scopes below it, assigned from a third one. -/
theorem names_belong_to_their_nearest_scope_siblings :
    let scopes := (((({} : Scopes).define 0 "x" (.string "outer")).enter 0).define 1 "x"
      (.string "inner")).enter 0 |>.enter 1
    let after := scopes.assign 3 "x" (.string "new")
    Made scopes ∧ after.value? 1 "x" = some (.string "new") ∧
      after.lookup 3 "x" = .ok (.string "new") ∧ after.lookup 2 "x" = .ok (.string "outer") := by
  intro scopes after
  have made : Made scopes :=
    .enter (.enter (.define (.enter (.define .fresh (by decide) ..) (by decide)) (by decide) ..)
      (by decide)) (by decide)
  obtain ⟨path, way, -, -, assigns⟩ :=
    (names_belong_to_their_nearest_scope made).1 3 (by decide)
  obtain ⟨path', way', -, looks, -⟩ := (names_belong_to_their_nearest_scope made).1 2 (by decide)
  cases way.unique (.rises rfl (.rises rfl (.ends rfl)) : scopes.Path 3 [3, 1, 0])
  cases way'.unique (.rises rfl (.ends rfl) : scopes.Path 2 [2, 0])
  obtain ⟨⟨-, -, values⟩, found, seen⟩ := assigns "x" (.string "new")
  have owner : [3, 1, 0].find? (scopes.binds · "x") = some 1 := by decide +kernel
  have first : [2, 0].find? (after.binds · "x") = some 0 := by decide +kernel
  have outer : [2, 0].findSome? (scopes.value? · "x") = some (.string "outer") := by decide +kernel
  rw [owner] at values seen
  refine ⟨made, ?_, found, ?_⟩
  · exact (values 1 "x").trans (if_pos ⟨rfl, rfl⟩)
  · refine (seen 2 [2, 0] way' "x").trans ?_
    rw [first, if_neg (by decide), looks, outer]

end Scopes
end StackScript
