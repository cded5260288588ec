import StackScript.Proofs.Reach

/-!
The scopes and the frames of a machine stay in step: along the frames, from the oldest on, every
frame that owns its scope has the next one, and the others share the scope of the frame below.
-/
namespace StackScript

def owners (frames : List Frame) : Nat :=
  frames.countP (·.kind.ownsScope)

structure InStep (scopes : Scopes) (frames : List Frame) : Prop where
  depth : scopes.depth = owners frames + 1
  scope : ∀ frame below, frame :: below <:+ frames → frame.scope = owners (frame :: below)
  parent : ∀ k, 0 < k → k < scopes.depth → scopes.parent? k = some (k - 1)

namespace Scopes

@[simp] theorem parent_define (scopes : Scopes) (scope : Nat) (name : String) (value : Value)
    (k : Nat) : (scopes.define scope name value).parent? k = scopes.parent? k := by
  cases scope with
  | zero => cases k <;> rfl
  | succ scope =>
    cases k with
    | zero => rfl
    | succ k =>
      change ((scopes.inner.modify scope _)[k]?).map Scope.parent = scopes.inner[k]?.map Scope.parent
      rw [Array.getElem?_modify]
      by_cases same : scope = k
      · rw [if_pos same, Option.map_map]
        rfl
      · rw [if_neg same]

theorem parent_enter (scopes : Scopes) (parent k : Nat) :
    (scopes.enter parent).parent? k =
      if k = scopes.depth then some parent else scopes.parent? k := by
  cases k with
  | zero => simp [parent?, depth]
  | succ k =>
    simp only [parent?, enter, depth, Array.getElem?_push, Nat.add_right_cancel_iff]
    split <;> rfl

theorem depth_leave (scopes : Scopes) {scope : Nat} (positive : 0 < scope)
    (exist : scope < scopes.depth) : (scopes.leave scope).depth = scope := by
  cases scope with
  | zero => omega
  | succ scope =>
    simp only [depth] at exist
    simp only [leave, depth, Array.size_shrink]
    omega

theorem inner_leave (scopes : Scopes) {scope k : Nat} (low : k < scope) :
    (scopes.leave (scope + 1)).inner[k]? = scopes.inner[k]? := by
  simp only [leave, Array.shrink_eq_take, Array.take_eq_extract, Array.getElem?_extract]
  split
  · rw [Nat.zero_add]
  · rw [Array.getElem?_eq_none (by omega)]

theorem older_leave (scopes : Scopes) {scope k : Nat} (low : k < scope) :
    (scopes.leave scope).parent? k = scopes.parent? k ∧
      (scopes.leave scope).bindings? k = scopes.bindings? k := by
  cases scope with
  | zero => omega
  | succ scope =>
    cases k with
    | zero => exact ⟨rfl, rfl⟩
    | succ k =>
      have same := scopes.inner_leave (show k < scope by omega)
      simp only [parent?, bindings?, same, and_self]

def Ordered (scopes : Scopes) : Prop :=
  ∀ scope parent, scopes.parent? scope = some parent → parent < scope

theorem lt_depth_of_parent {scopes : Scopes} {scope parent : Nat}
    (up : scopes.parent? scope = some parent) : scope < scopes.depth := by
  cases scope with
  | zero => cases up
  | succ k =>
    obtain ⟨inner, there, -⟩ := Option.map_eq_some_iff.mp up
    exact Nat.succ_lt_succ (Array.getElem?_eq_some_iff.mp there).1

theorem owner_le (scopes : Scopes) (name : String) {scope owner : Nat}
    (found : scopes.owner? name scope = some owner) : owner ≤ scope := by
  induction scope using Nat.strongRecOn with
  | ind scope ih =>
    unfold owner? at found
    split at found
    · cases found
      exact Nat.le_refl _
    · split at found
      · split at found
        · exact Nat.le_trans (ih _ ‹_› found) (Nat.le_of_lt ‹_›)
        · cases found
      · cases found

end Scopes

theorem owners_resume (frame : Frame) (below : List Frame) (next : Nat) :
    owners (frame.resumeAt next :: below) = owners (frame :: below) := rfl

theorem owners_cons (frame : Frame) (below : List Frame) :
    owners (frame :: below) = owners below + if frame.kind.ownsScope then 1 else 0 :=
  List.countP_cons

namespace InStep

variable {scopes : Scopes} {frame : Frame} {below : List Frame}

theorem top (inStep : InStep scopes (frame :: below)) : frame.scope = scopes.newest := by
  have depth := inStep.depth
  rw [inStep.scope frame below (List.suffix_refl _)]
  simp only [Scopes.newest, Scopes.depth] at depth ⊢
  omega

theorem ordered {frames : List Frame} (inStep : InStep scopes frames) : scopes.Ordered := by
  intro k parent up
  have exist := Scopes.lt_depth_of_parent up
  rcases Nat.eq_zero_or_pos k with rfl | inner
  · cases up
  · cases up.symm.trans (inStep.parent k inner exist)
    omega

theorem scope_lt (inStep : InStep scopes (frame :: below)) : frame.scope < scopes.depth := by
  rw [inStep.top]
  exact Nat.lt_succ_self _

theorem owner_positive (inStep : InStep scopes (frame :: below))
    (owns : frame.kind.ownsScope = true) : 0 < frame.scope := by
  rw [inStep.scope frame below (List.suffix_refl _), owners_cons, owns]
  exact Nat.succ_pos _

theorem member_lt {frames : List Frame} (inStep : InStep scopes frames) (member : frame ∈ frames) :
    frame.scope < scopes.depth := by
  obtain ⟨newer, older, split⟩ := List.append_of_mem member
  have suffix : frame :: older <:+ frames := ⟨newer, split.symm⟩
  rw [inStep.scope frame older suffix, inStep.depth]
  exact Nat.lt_succ_of_le suffix.sublist.countP_le

theorem above_owner (inStep : ∀ other older, other :: older <:+ frame :: below →
      other.scope = owners (other :: older))
    (owns : frame.kind.ownsScope = true) : ∀ other ∈ below, other.scope < frame.scope := by
  intro other member
  obtain ⟨newer, older, split⟩ := List.append_of_mem member
  have suffix : other :: older <:+ below := ⟨newer, split.symm⟩
  have fewer : owners (other :: older) ≤ owners below := suffix.sublist.countP_le
  rw [inStep other older (suffix.trans (List.suffix_cons ..)),
    inStep frame below (List.suffix_refl _), owners_cons frame, owns]
  exact Nat.lt_succ_of_le fewer

theorem below_shared (inStep : ∀ other older, other :: older <:+ frame :: below →
      other.scope = owners (other :: older))
    (shared : ¬frame.kind.ownsScope = true) :
    frame.scope = (below.head?.map Frame.scope).getD 0 := by
  rw [inStep frame below (List.suffix_refl _), owners_cons, if_neg shared]
  cases below with
  | nil => rfl
  | cons caller below =>
    exact (inStep caller below (List.suffix_cons ..)).symm

/-- The scopes may change their bindings, and a frame the address where it goes on. -/
theorem resume (inStep : InStep scopes (frame :: below)) {after : Scopes} (next : Nat)
    (depth : after.depth = scopes.depth) (parent : ∀ k, after.parent? k = scopes.parent? k) :
    InStep after (frame.resumeAt next :: below) where
  depth := by rw [depth, inStep.depth, owners_resume]
  scope := by
    intro other older suffix
    rcases List.suffix_cons_iff.mp suffix with same | inside
    · cases same
      exact inStep.scope frame below (List.suffix_refl _)
    · exact inStep.scope other older (inside.trans (List.suffix_cons ..))
  parent := by
    intro k positive exist
    rw [parent]
    exact inStep.parent k positive (depth ▸ exist)

theorem push (inStep : InStep scopes below) (shared : frame.kind.ownsScope = false)
    (scope : frame.scope = owners below) : InStep scopes (frame :: below) where
  depth := by
    rw [inStep.depth, owners_cons, shared]
    rfl
  scope := by
    intro other older suffix
    rcases List.suffix_cons_iff.mp suffix with same | inside
    · cases same
      rw [scope, owners_cons, shared]
      rfl
    · exact inStep.scope other older inside
  parent := inStep.parent

theorem pushOwner (inStep : InStep scopes below) (owns : frame.kind.ownsScope = true)
    (scope : frame.scope = scopes.depth) (parent : Nat) (last : parent + 1 = scopes.depth) :
    InStep (scopes.enter parent) (frame :: below) where
  depth := by
    rw [Scopes.depth_enter, inStep.depth, owners_cons, owns]
    rfl
  scope := by
    intro other older suffix
    rcases List.suffix_cons_iff.mp suffix with same | inside
    · cases same
      rw [scope, inStep.depth, owners_cons, owns]
      rfl
    · exact inStep.scope other older inside
  parent := by
    intro k positive exist
    rw [Scopes.depth_enter] at exist
    rw [Scopes.parent_enter]
    split
    · rename_i new
      rw [Option.some.injEq]
      omega
    · exact inStep.parent k positive (by omega)

theorem below_scope (inStep : InStep scopes below) :
    (below.head?.map Frame.scope).getD 0 = owners below := by
  cases below with
  | nil => rfl
  | cons frame below => exact inStep.scope frame below (List.suffix_refl _)

theorem pop (inStep : InStep scopes (frame :: below)) :
    InStep (if frame.kind.ownsScope then scopes.leave frame.scope else scopes) below := by
  have depth := inStep.depth
  have scope := inStep.scope frame below (List.suffix_refl _)
  rw [owners_cons] at depth scope
  have older : ∀ other rest, other :: rest <:+ below → other.scope = owners (other :: rest) :=
    fun other rest inside => inStep.scope other rest (inside.trans (List.suffix_cons ..))
  by_cases owns : frame.kind.ownsScope = true
  · simp only [owns, ↓reduceIte] at depth scope ⊢
    have depth_leave := @Scopes.depth_leave scopes frame.scope (by omega) (by omega)
    refine ⟨by omega, older, ?_⟩
    intro k positive exist
    rw [(scopes.older_leave (by omega)).1]
    exact inStep.parent k positive (by omega)
  · simp only [owns] at depth ⊢
    exact ⟨by simpa using depth, older, inStep.parent⟩

theorem alone (single : scopes.depth = 1) : InStep scopes [] where
  depth := single
  scope := by
    intro frame below suffix
    simp at suffix
  parent := by
    intro k positive exist
    omega

end InStep

namespace Machine

theorem kept_inStep : Kept fun scopes _ frames => InStep scopes frames where
  initial := InStep.alone rfl
  forgets _ := InStep.alone rfl
  idles _ := InStep.alone rfl
  begins kind first program before := by
    refine before.push ?_ rfl
    rcases first with rfl | rfl <;> rfl
  attaches program before := before.push rfl before.below_scope
  passes before _ := before.resume _ rfl fun _ => rfl
  works before _ _ within effect := by
    cases effect with
    | works control values stays asks => exact before.resume _ rfl fun _ => rfl
    | takesBranch block span values found chosen => exact absurd rfl (within _ _)
    | skipsBranch block values found => exact before.resume _ rfl fun _ => rfl
    | beginsLoop block found => exact absurd rfl (within _ _)
    | skipsLoop block found => exact before.resume _ rfl fun _ => rfl
    | defines name block named found => exact before.resume _ rfl fun _ => rfl
    | declares name named =>
      exact before.resume _ (Scopes.depth_define ..) (Scopes.parent_define _ _ _ _)
    | assigns name value values =>
      exact before.resume _ (Scopes.depth_define ..) (Scopes.parent_define _ _ _ _)
    | calls name body defined => exact absurd rfl (within _ _)
  enters before _ _ effect := by
    have shared := before.scope _ _ (List.suffix_refl _)
    have last := before.top
    cases effect with
    | works control values stays asks => cases stays
    | takesBranch block span values found chosen =>
      exact (before.resume _ rfl fun _ => rfl).push rfl shared
    | beginsLoop block found =>
      exact (before.resume _ rfl fun _ => rfl).pushOwner rfl rfl _ (congrArg (· + 1) last)
    | calls name body defined =>
      exact (before.resume _ rfl fun _ => rfl).pushOwner rfl rfl _ (congrArg (· + 1) last)
  repeats before _ := before.resume _ rfl fun _ => rfl
  closes before := before.pop
  starts before entry _ := by
    have shared := before.scope _ _ (List.suffix_refl _)
    have left := before.pop
    simp only [owners_cons, entry, Frame.Kind.ownsScope] at shared left
    exact left.push rfl shared

/-- In every machine that can come about the scopes follow the frames. So the running frame has the
newest scope, a frame that ends with a scope of its own gives back exactly that one, and no frame
names a scope that is not there. -/
theorem scopes_follow_frames {m : Machine} (reached : m.Reachable) :
    m.store.scopes.depth = owners m.frames.items + 1 ∧
      (∀ k, 0 < k → k < m.store.scopes.depth → m.store.scopes.parent? k = some (k - 1)) ∧
      m.store.scopes.parent? 0 = none ∧
      (∀ frame below, frame :: below <:+ m.frames.items →
        frame.scope = owners (frame :: below) ∧
        (frame.kind.ownsScope → ∀ other ∈ below, other.scope < frame.scope) ∧
        (¬frame.kind.ownsScope → frame.scope = (below.head?.map Frame.scope).getD 0)) ∧
      (∀ frame ∈ m.frames.items, frame.scope < m.store.scopes.depth ∧
        ∀ name owner, m.store.scopes.owner? name frame.scope = some owner →
          owner < m.store.scopes.depth) ∧
      ∀ frame, m.frames.top? = some frame →
        frame.scope = m.store.scopes.newest ∧
        (frame.kind.ownsScope → 0 < frame.scope ∧ frame.scope + 1 = m.store.scopes.depth ∧
          (m.close frame).store.scopes.depth = frame.scope ∧
          ∀ k < frame.scope,
            (m.close frame).store.scopes.bindings? k = m.store.scopes.bindings? k ∧
              (m.close frame).store.scopes.parent? k = m.store.scopes.parent? k) := by
  have inStep : InStep m.store.scopes m.frames.items := kept_inStep.reachable reached
  refine ⟨inStep.depth, inStep.parent, rfl, ?_, ?_, ?_⟩
  · intro frame below suffix
    have within : ∀ other older, other :: older <:+ frame :: below →
        other.scope = owners (other :: older) :=
      fun other older inside => inStep.scope other older (inside.trans suffix)
    exact ⟨inStep.scope frame below suffix, InStep.above_owner within, InStep.below_shared within⟩
  · intro frame member
    have exist := inStep.member_lt member
    refine ⟨exist, ?_⟩
    intro name owner found
    exact Nat.lt_of_le_of_lt (Scopes.owner_le _ name found) exist
  · intro frame top
    obtain ⟨below, frames⟩ := Stack.top_eq_some top
    rw [frames, Stack.items_ofList] at inStep
    refine ⟨inStep.top, ?_⟩
    intro owns
    have positive := inStep.owner_positive owns
    refine ⟨positive, congrArg (· + 1) inStep.top, ?_⟩
    simp only [close, owns, ↓reduceIte]
    refine ⟨Scopes.depth_leave _ positive inStep.scope_lt, ?_⟩
    intro k low
    exact (Scopes.older_leave _ low).symm

/-- Inside a call inside a loop. -/
theorem scopes_follow_frames_nested :
    let m := (({} : Machine).after (.direct (.ofText "t" "func f input end 1 while f end"))).after
      (.execute 4)
    m.Reachable ∧ owners m.frames.items = 2 ∧ m.store.scopes.depth = 3 := by
  have reached := Reachable.initial.call
    (.direct (.ofText "t" "func f input end 1 while f end")) |>.call (.execute 4)
  have two : owners ((({} : Machine).after (.direct (.ofText "t" "func f input end 1 while f end"))).after
      (.execute 4)).frames.items = 2 := by decide +kernel
  exact ⟨reached, two, (scopes_follow_frames reached).1.trans (by rw [two])⟩

end Machine
end StackScript
