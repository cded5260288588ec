import StackScript.Proofs.Bindings
import StackScript.Proofs.Waiting

/-!
Variables and the blocks that make them. Calls and loops leave no variable behind and take none away;
what they assign to older ones stays. A branch works in the scope around it, and what it binds there
stays bound.
-/
namespace StackScript
namespace Machine

inductive Goes (m : Machine) : Machine → Prop where
  | cycle (ready : m.Ready) : Goes m (m.execute 1).1
  | line (asked : m.request = some .line) (text : String) : Goes m (m.enter text)
  | program {path : String} (asked : m.request = some (.program path)) (program : Program) :
      Goes m (m.attach program)

theorem goes_reachable {m after : Machine} (reached : m.Reachable) (goes : m.Goes after) :
    after.Reachable := by
  cases goes with
  | cycle => exact reached.call (.execute 1)
  | line _ text => exact reached.call (.enter text)
  | program _ program => exact reached.call (.attach program)

theorem execute_step {m : Machine} (ready : m.Ready) : (m.execute 1).1 = m.step.1 :=
  congrArg Prod.fst (execute_one ready (Prod.eta m.step).symm)

theorem enter_eq {m : Machine} (asked : m.request = some .line) (text : String) :
    m.enter text =
      { m with
        store := { m.store with values := m.store.values.push (.string text) }
        request := none } := by
  simp only [enter, asked]

theorem goes_rescopes {m after : Machine} {frame : Frame} {below : List Frame}
    (frames : m.frames = .ofList (frame :: below)) (goes : m.Goes after) :
    m.Rescopes frame.scope after.store.scopes := by
  cases goes with
  | cycle ready =>
    rw [execute_step ready]
    exact step_rescopes frames
  | line asked text =>
    rw [enter_eq asked]
    exact .same
  | program asked program =>
    rw [attach_eq asked program _ frames]
    split
    · exact .unwinds
    · exact .same

def Opened (m : Machine) (inner : Frame) (base : List Frame) : Prop :=
  ∃ above next, m.frames.items = above ++ inner.resumeAt next :: base

section Opened

variable {m after : Machine} {frame inner : Frame} {below base : List Frame}

theorem Opened.push (opened : m.Opened inner base) (newest : Frame)
    (frames : after.frames.items = newest :: m.frames.items) : after.Opened inner base := by
  obtain ⟨above, next, same⟩ := opened
  exact ⟨newest :: above, next, by rw [frames, same, List.cons_append]⟩

theorem Opened.nonempty (opened : m.Opened inner base) :
    ∃ frame below, m.frames = .ofList (frame :: below) := by
  obtain ⟨above, next, same⟩ := opened
  cases above with
  | nil => exact ⟨_, _, Stack.eq_of_items same⟩
  | cons frame above => exact ⟨_, _, Stack.eq_of_items same⟩

theorem moves_opened {event : Option Event} (moved : m.Moves frame below after event)
    (frames : m.frames = .ofList (frame :: below)) (opened : m.Opened inner base)
    (kind : inner.kind ≠ .entry) (deep : base.length < after.frames.items.length) :
    after.Opened inner base := by
  obtain ⟨above, next, same⟩ := opened
  rw [frames, Stack.items_ofList] at same
  cases above with
  | nil =>
    -- the frame that runs is `inner` itself
    cases same
    cases moved with
    | passes | works | repeats => exact ⟨[], _, rfl⟩
    | enters op resume newest => exact ⟨[newest], resume, rfl⟩
    | starts _ _ entry => exact absurd entry kind
    | closes => exact absurd deep (Nat.lt_irrefl _)
    | misses | fails | overflows | doubts | chokes => exact absurd deep (Nat.not_lt_zero _)
  | cons top above =>
    cases same
    cases moved with
    | passes | works | repeats => exact ⟨_ :: above, next, rfl⟩
    | enters op resume newest => exact ⟨newest :: _ :: above, next, rfl⟩
    | starts => exact ⟨_ :: above, next, rfl⟩
    | closes => exact ⟨above, next, rfl⟩
    | misses | fails | overflows | doubts | chokes => exact absurd deep (Nat.not_lt_zero _)

theorem goes_opened (goes : m.Goes after) (opened : m.Opened inner base)
    (kind : inner.kind ≠ .entry) (deep : base.length < after.frames.items.length) :
    after.Opened inner base := by
  obtain ⟨frame, below, frames⟩ := opened.nonempty
  cases goes with
  | cycle ready =>
    rw [execute_step ready] at deep ⊢
    exact moves_opened (step_moves frames) frames opened kind deep
  | line asked text =>
    rw [enter_eq asked]
    exact opened
  | program asked program =>
    rw [attach_eq asked program _ frames] at deep ⊢
    split at deep
    · exact absurd deep (Nat.not_lt_zero _)
    · rw [if_neg ‹_›]
      refine opened.push (.start .attached program program.span frame.scope) ?_
      rw [frames]
      rfl

theorem Opened.scope_le (opened : m.Opened inner base)
    (frames : m.frames = .ofList (frame :: below)) (inStep : InStep m.store.scopes m.frames.items) :
    inner.scope ≤ frame.scope ∧ inner.scope < m.store.scopes.depth := by
  obtain ⟨above, next, same⟩ := opened
  have suffix : inner.resumeAt next :: base <:+ m.frames.items := ⟨above, same.symm⟩
  have scope : inner.scope = owners (inner.resumeAt next :: base) :=
    inStep.scope (inner.resumeAt next) base suffix
  have fewer : owners (inner.resumeAt next :: base) ≤ owners m.frames.items :=
    suffix.sublist.countP_le
  have depth := inStep.depth
  rw [frames] at inStep
  have newest := inStep.top
  rw [Scopes.newest] at newest
  rw [Scopes.depth] at depth ⊢
  omega

end Opened

/-- The operation at which `frame` stands is carried out by the first `n` moves of a run: between the
first and the last of them more frames are open than before and after. -/
structure Completes (m : Machine) (frame : Frame) (below : List Frame) (run : Nat → Machine)
    (n : Nat) : Prop where
  begins : run 0 = m
  ready : m.Ready
  moved : 0 < n
  goes : ∀ i, i < n → (run i).Goes (run (i + 1))
  inside : ∀ i, 0 < i → i < n → below.length + 1 < (run i).frames.items.length
  ends : ∃ resume, (run n).frames = .ofList (frame.resumeAt resume :: below)

theorem parent_of_inStep {scopes : Scopes} {frames : List Frame} (inStep : InStep scopes frames)
    (k : Nat) : scopes.parent? k = if 0 < k ∧ k < scopes.depth then some (k - 1) else none := by
  split
  · rename_i there
    exact inStep.parent k there.1 there.2
  · rename_i missing
    cases k with
    | zero => rfl
    | succ k =>
      simp only [Scopes.depth] at missing
      rw [Scopes.parent?, Array.getElem?_eq_none (by omega), Option.map_none]

/-- Along the first `n` moves the scope `k` belongs to no frame that runs. -/
structure Outside (run : Nat → Machine) (n k : Nat) : Prop where
  names : ∀ i, i < n → ∀ name,
    (run (i + 1)).store.scopes.binds k name = (run i).store.scopes.binds k name
  values : ∀ i, i < n → ∀ name,
    (run (i + 1)).store.scopes.value? k name = (run i).store.scopes.value? k name ∨
      ∃ value, (run i).Assigns k name value ∧
        (run (i + 1)).store.scopes.value? k name = some value

namespace Outside

variable {run : Nat → Machine} {n k : Nat}

theorem shorter (outside : Outside run (n + 1) k) : Outside run n k :=
  ⟨fun i within => outside.names i (Nat.lt_succ_of_lt within),
    fun i within => outside.values i (Nat.lt_succ_of_lt within)⟩

theorem binds_eq (outside : Outside run n k) (name : String) :
    (run n).store.scopes.binds k name = (run 0).store.scopes.binds k name := by
  induction n with
  | zero => rfl
  | succ n ih => exact (outside.names n (Nat.lt_succ_self n) name).trans (ih outside.shorter)

/-- What a name has at the end it was given last. -/
theorem last_value (outside : Outside run n k) (name : String) (i : Nat) (within : i ≤ n) :
    (run n).store.scopes.value? k name = (run i).store.scopes.value? k name ∨
      ∃ j value, i ≤ j ∧ j < n ∧ (run j).Assigns k name value ∧
        (run n).store.scopes.value? k name = some value := by
  induction n with
  | zero =>
    rw [Nat.le_zero.mp within]
    exact .inl rfl
  | succ n ih =>
    rcases Nat.lt_or_eq_of_le within with before | rfl
    · rcases outside.values n (Nat.lt_succ_self n) name with same | ⟨value, assigns, given⟩
      · rw [same]
        rcases ih outside.shorter (Nat.le_of_lt_succ before) with kept | ⟨j, value, late, early, rest⟩
        · exact .inl kept
        · exact .inr ⟨j, value, late, Nat.lt_succ_of_lt early, rest⟩
      · exact .inr ⟨n, value, Nat.le_of_lt_succ before, Nat.lt_succ_self n, assigns, given⟩
    · exact .inl rfl

end Outside

theorem enters_scope {op : Op} {site : Site} {store after : Store} {resume : Nat} {inner : Frame}
    (performed : op.perform site store = .ok (.enter resume inner) after) :
    inner.scope = (if op = .branch then site.scope else store.scopes.depth) ∧
      ∀ k, k < store.scopes.depth → ∀ name,
        after.scopes.value? k name = store.scopes.value? k name := by
  cases Op.effect_of_perform performed with
  | works control values stays => cases stays
  | takesBranch => exact ⟨rfl, fun _ _ _ => rfl⟩
  | beginsLoop => exact ⟨rfl, fun _ old => store.scopes.value_enter _ old⟩
  | calls => exact ⟨rfl, fun _ old => store.scopes.value_enter _ old⟩

namespace Completes

variable {m : Machine} {frame inner : Frame} {below : List Frame} {run : Nat → Machine}
  {n resume : Nat}

theorem reachable (completes : m.Completes frame below run n) (reached : m.Reachable) (i : Nat)
    (within : i ≤ n) : (run i).Reachable := by
  induction i with
  | zero => exact completes.begins ▸ reached
  | succ i ih => exact goes_reachable (ih (Nat.le_of_succ_le within)) (completes.goes i within)

theorem first_step (completes : m.Completes frame below run n) : run 1 = m.step.1 := by
  have goes := completes.goes 0 completes.moved
  have noRequest := completes.ready.noRequest
  rw [completes.begins] at goes
  generalize run (0 + 1) = after at goes
  cases goes with
  | cycle ready => exact execute_step ready
  | line asked | program asked => cases noRequest.symm.trans asked

theorem height (completes : m.Completes frame below run n) :
    n = 1 ∧ (run 1).frames.items.length = below.length + 1 ∨
      1 < n ∧ below.length + 1 < (run 1).frames.items.length := by
  rcases Nat.lt_or_eq_of_le completes.moved with more | rfl
  · exact .inr ⟨more, completes.inside 1 Nat.one_pos more⟩
  · obtain ⟨resume, frames⟩ := completes.ends
    rw [frames]
    exact .inl ⟨rfl, rfl⟩

theorem first {op : Op} (completes : m.Completes frame below run n)
    (frames : m.frames = .ofList (frame :: below)) (inside : frame.next < frame.span.stop)
    (here : frame.program.op? frame.next = some op)
    (opens : op = .branch ∨ op = .loop ∨ ∃ name, op = .word name) :
    n = 1 ∧ (run 1).store.scopes = m.store.scopes ∨
      ∃ resume inner, 1 < n ∧ (run 1).frames.items = inner :: frame.resumeAt resume :: below ∧
        op.perform (siteOf frame) m.store = .ok (.enter resume inner) (run 1).store := by
  have height := completes.height
  have moved := step_moves frames
  rw [← completes.first_step] at moved
  generalize run 1 = after, m.step.2 = event at height moved
  cases moved with
  | passes =>
    rcases height with ⟨one, -⟩ | ⟨-, deeper⟩
    · exact .inl ⟨one, rfl⟩
    · exact absurd deeper (Nat.lt_irrefl _)
  | works found store _ there _ control within performed =>
    cases here.symm.trans there
    rcases height with ⟨one, -⟩ | ⟨-, deeper⟩
    · refine .inl ⟨one, ?_⟩
      cases Op.effect_of_perform performed with
      | works | skipsBranch | skipsLoop => rfl
      | takesBranch | beginsLoop | calls => exact absurd rfl (within _ _)
      | defines | declares | assigns =>
        simp only [reduceCtorEq, exists_false, or_self] at opens
    · exact absurd deeper (Nat.lt_irrefl _)
  | enters found resume inner store _ there _ performed =>
    cases here.symm.trans there
    rcases height with ⟨-, same⟩ | ⟨more, -⟩
    · exact absurd same (Nat.succ_ne_self _)
    · exact .inr ⟨resume, inner, more, rfl, performed⟩
  | misses | fails | overflows | doubts | chokes =>
    rcases height with ⟨-, same⟩ | ⟨-, deeper⟩
    · cases same
    · exact absurd deeper (Nat.not_lt_zero _)
  | repeats outside | closes outside | starts _ outside => omega

theorem opened (completes : m.Completes frame below run n)
    (entered : (run 1).frames.items = inner :: frame.resumeAt resume :: below)
    (kind : inner.kind ≠ .entry) (i : Nat) (positive : 0 < i) (within : i < n) :
    (run i).Opened inner (frame.resumeAt resume :: below) := by
  induction i with
  | zero => exact absurd positive (Nat.lt_irrefl 0)
  | succ i ih =>
    rcases Nat.eq_zero_or_pos i with rfl | later
    · exact ⟨[], inner.next, entered⟩
    · have deep := completes.inside (i + 1) positive within
      have before := Nat.lt_of_succ_lt within
      exact goes_opened (completes.goes i before) (ih later before) kind deep

theorem depth_eq (completes : m.Completes frame below run n)
    (frames : m.frames = .ofList (frame :: below)) (reached : m.Reachable) :
    (run n).store.scopes.depth = m.store.scopes.depth := by
  obtain ⟨resume, back⟩ := completes.ends
  have before := (kept_inStep.reachable reached).depth
  have after := (kept_inStep.reachable (completes.reachable reached n (Nat.le_refl n))).depth
  rw [frames] at before
  rw [back] at after
  exact after.trans before.symm

theorem parent_eq (completes : m.Completes frame below run n)
    (frames : m.frames = .ofList (frame :: below)) (reached : m.Reachable) (k : Nat) :
    (run n).store.scopes.parent? k = m.store.scopes.parent? k := by
  have after := kept_inStep.reachable (completes.reachable reached n (Nat.le_refl n))
  rw [parent_of_inStep after, parent_of_inStep (kept_inStep.reachable reached),
    completes.depth_eq frames reached]

section Inner

variable (completes : m.Completes frame below run n) (frames : m.frames = .ofList (frame :: below))
  (reached : m.Reachable)
  (entered : (run 1).frames.items = inner :: frame.resumeAt resume :: below)
  (kind : inner.kind ≠ .entry)
include completes frames reached entered kind

theorem exist {k : Nat} (low : k ≤ inner.scope) (old : k < m.store.scopes.depth) (i : Nat)
    (positive : 0 < i) (within : i ≤ n) : k < (run i).store.scopes.depth := by
  rcases Nat.lt_or_eq_of_le within with before | rfl
  · have opened := completes.opened entered kind i positive before
    obtain ⟨top, rest, same⟩ := opened.nonempty
    have inStep := kept_inStep.reachable (completes.reachable reached i within)
    have there := (opened.scope_le same inStep).2
    omega
  · rw [completes.depth_eq frames reached]
    exact old

theorem later {k : Nat} (low : k ≤ inner.scope) (old : k < m.store.scopes.depth) (i : Nat)
    (positive : 0 < i) (within : i < n) :
    ∃ here, inner.scope ≤ here ∧ (run i).Rescopes here (run (i + 1)).store.scopes ∧
      k < (run i).store.scopes.depth ∧ k < (run (i + 1)).store.scopes.depth := by
  have opened := completes.opened entered kind i positive within
  obtain ⟨top, rest, same⟩ := opened.nonempty
  have inStep := kept_inStep.reachable (completes.reachable reached i (Nat.le_of_lt within))
  exact ⟨top.scope, (opened.scope_le same inStep).1, goes_rescopes same (completes.goes i within),
    completes.exist frames reached entered kind low old i positive (Nat.le_of_lt within),
    completes.exist frames reached entered kind low old (i + 1) (Nat.succ_pos i) within⟩

theorem outside (first : ∀ k, k < m.store.scopes.depth → ∀ name,
      (run 1).store.scopes.value? k name = m.store.scopes.value? k name)
    {k : Nat} (low : k < inner.scope) (old : k < m.store.scopes.depth) : Outside run n k := by
  constructor
  · intro i within name
    rcases Nat.eq_zero_or_pos i with rfl | positive
    · rw [completes.begins, Scopes.binds_eq, Scopes.binds_eq, first k old]
    · obtain ⟨here, newer, change, before, after⟩ := completes.later frames reached entered kind
        (Nat.le_of_lt low) old i positive within
      exact change.names (by omega) before after name
  · intro i within name
    rcases Nat.eq_zero_or_pos i with rfl | positive
    · rw [completes.begins]
      exact .inl (first k old name)
    · obtain ⟨here, newer, change, before, after⟩ := completes.later frames reached entered kind
        (Nat.le_of_lt low) old i positive within
      exact change.value (by omega) before after name

theorem grows (first : ∀ k, k < m.store.scopes.depth → ∀ name,
      (run 1).store.scopes.value? k name = m.store.scopes.value? k name)
    {k : Nat} (low : k ≤ inner.scope) (old : k < m.store.scopes.depth) (i : Nat) (within : i ≤ n)
    (name : String) (bound : (run i).store.scopes.binds k name = true) :
    (run n).store.scopes.binds k name = true := by
  have move : ∀ j, j < n → (run j).store.scopes.binds k name = true →
      (run (j + 1)).store.scopes.binds k name = true := by
    intro j early bound
    rcases Nat.eq_zero_or_pos j with rfl | positive
    · rw [completes.begins] at bound
      rwa [Scopes.binds_eq, first k old, ← Scopes.binds_eq]
    · obtain ⟨here, -, change, before, after⟩ := completes.later frames reached entered kind low old
        j positive early
      exact change.grows before after bound
  have moves : ∀ rest, i + rest ≤ n → (run (i + rest)).store.scopes.binds k name = true := by
    intro rest
    induction rest with
    | zero => exact fun _ => bound
    | succ rest ih => exact fun early => move (i + rest) early (ih (Nat.le_of_succ_le early))
  obtain ⟨rest, rfl⟩ := Nat.exists_eq_add_of_le within
  exact moves rest (Nat.le_refl _)

end Inner

theorem quiet (completes : m.Completes frame below run n) (one : n = 1)
    (same : (run 1).store.scopes = m.store.scopes) (i : Nat) (within : i ≤ n) :
    (run i).store.scopes = m.store.scopes := by
  rcases Nat.eq_zero_or_pos i with rfl | positive
  · rw [completes.begins]
  · rw [show i = 1 by omega, same]

/-- A call or a loop. -/
theorem names_kept {op : Op} (completes : m.Completes frame below run n)
    (frames : m.frames = .ofList (frame :: below)) (reached : m.Reachable)
    (inside : frame.next < frame.span.stop) (here : frame.program.op? frame.next = some op)
    (opens : op = .loop ∨ ∃ name, op = .word name) {k : Nat} (old : k < m.store.scopes.depth) :
    Outside run n k := by
  rcases completes.first frames inside here (.inr opens) with
    ⟨one, same⟩ | ⟨resume, inner, -, entered, performed⟩
  · have still := completes.quiet one same
    constructor
    · intro i within name
      rw [still i (Nat.le_of_lt within), still (i + 1) within]
    · intro i within name
      rw [still i (Nat.le_of_lt within), still (i + 1) within]
      exact .inl rfl
  · have kind := Op.enters_plain performed
    obtain ⟨scope, first⟩ := enters_scope performed
    have other : op ≠ .branch := by
      rcases opens with rfl | ⟨name, rfl⟩ <;> nofun
    rw [if_neg other] at scope
    exact completes.outside frames reached entered kind first (by omega) old

theorem branch_keeps (completes : m.Completes frame below run n)
    (frames : m.frames = .ofList (frame :: below)) (reached : m.Reachable)
    (inside : frame.next < frame.span.stop)
    (here : frame.program.op? frame.next = some .branch) :
    (∀ k, k < frame.scope → ∀ name,
      (run n).store.scopes.binds k name = m.store.scopes.binds k name) ∧
      ∀ i, i ≤ n → ∀ name, (run i).store.scopes.binds frame.scope name = true →
        (run n).store.scopes.binds frame.scope name = true := by
  have inStep := kept_inStep.reachable reached
  rw [Kept.On, frames] at inStep
  have exist := inStep.scope_lt
  rcases completes.first frames inside here (.inl rfl) with
    ⟨one, same⟩ | ⟨resume, inner, -, entered, performed⟩
  · have still := completes.quiet one same
    rw [still n (Nat.le_refl n)]
    refine ⟨fun _ _ _ => rfl, ?_⟩
    intro i within name bound
    rwa [still i within] at bound
  · have kind := Op.enters_plain performed
    obtain ⟨scope, first⟩ := enters_scope performed
    have shared : inner.scope = frame.scope := scope
    constructor
    · intro k older name
      have outside := completes.outside frames reached entered kind first (shared ▸ older)
        (Nat.lt_trans older exist)
      rw [outside.binds_eq, completes.begins]
    · intro i within name bound
      exact completes.grows frames reached entered kind first (Nat.le_of_eq shared.symm) exist i
        within name bound

end Completes

/-- A step keeps the names of every scope but the running one, and of their values it changes at most
the one of the nearest binding of the name that it assigns. So a call or a loop, once it is over, has
left the scopes as they were, each with the names it had; the names made inside are gone, and what was
last assigned to an older name is its value. What a branch binds stays bound around it. -/
theorem variables_stay_in_their_scope {m : Machine} {frame : Frame} {below : List Frame}
    (reached : m.Reachable) (frames : m.frames = .ofList (frame :: below)) :
    (∀ k, k ≠ frame.scope → k < m.store.scopes.depth → k < m.step.1.store.scopes.depth → ∀ name,
        m.step.1.store.scopes.binds k name = m.store.scopes.binds k name ∧
        (m.step.1.store.scopes.value? k name = m.store.scopes.value? k name ∨
          ∃ value, m.Assigns k name value ∧
            m.step.1.store.scopes.value? k name = some value)) ∧
      (∀ k name value, m.Assigns k name value →
        m.step.1.store.scopes.value? k name = some value ∧
        ∀ l other given, m.Assigns l other given → l = k ∧ other = name ∧ given = value) ∧
      ∀ run n op, m.Completes frame below run n → frame.next < frame.span.stop →
        frame.program.op? frame.next = some op →
        (run n).store.scopes.depth = m.store.scopes.depth ∧
        (∀ k, (run n).store.scopes.parent? k = m.store.scopes.parent? k) ∧
        ((op = .loop ∨ ∃ name, op = .word name) →
          (∀ k name, (run n).store.scopes.binds k name = m.store.scopes.binds k name) ∧
          ∀ k, k < m.store.scopes.depth → ∀ name i, i ≤ n →
            (run n).store.scopes.value? k name = (run i).store.scopes.value? k name ∨
              ∃ j value, i ≤ j ∧ j < n ∧ (run j).Assigns k name value ∧
                (run n).store.scopes.value? k name = some value) ∧
        (op = .branch →
          (∀ k, k ≠ frame.scope → ∀ name,
            (run n).store.scopes.binds k name = m.store.scopes.binds k name) ∧
          ∀ i, i ≤ n → ∀ name, (run i).store.scopes.binds frame.scope name = true →
            (run n).store.scopes.binds frame.scope name = true) := by
  refine ⟨?_, ?_, ?_⟩
  · intro k other old left name
    have change := step_rescopes frames
    exact ⟨change.names other old left name, change.value other old left name⟩
  · intro k name value assigns
    have inStep : InStep m.store.scopes m.frames.items := kept_inStep.reachable reached
    exact ⟨step_assigned inStep assigns, fun l other given again => again.unique assigns⟩
  · intro run n op completes inside here
    have depth := completes.depth_eq frames reached
    -- where there is no scope, nothing is bound before or after
    have beyond : ∀ k, ¬k < m.store.scopes.depth → ∀ name,
        (run n).store.scopes.binds k name = m.store.scopes.binds k name := by
      intro k missing name
      rw [Scopes.binds_beyond _ missing, Scopes.binds_beyond _ (depth.symm ▸ missing)]
    refine ⟨depth, completes.parent_eq frames reached, ?_, ?_⟩
    · intro opens
      constructor
      · intro k name
        by_cases old : k < m.store.scopes.depth
        · have outside := completes.names_kept frames reached inside here opens old
          rw [outside.binds_eq, completes.begins]
        · exact beyond k old name
      · intro k old name i within
        exact (completes.names_kept frames reached inside here opens old).last_value name i within
    · rintro rfl
      obtain ⟨older, grows⟩ := completes.branch_keeps frames reached inside here
      refine ⟨?_, grows⟩
      intro k other name
      by_cases low : k < frame.scope
      · exact older k low name
      · -- the running frame has the newest scope, so none lies above it
        have inStep := kept_inStep.reachable reached
        rw [Kept.On, frames] at inStep
        have newest := inStep.top
        refine beyond k ?_ name
        simp only [Scopes.newest, Scopes.depth] at newest ⊢
        omega

/-- A function that assigns the variable around it and makes one of its own. -/
theorem variables_stay_in_their_scope_call :
    let program := Program.ofText "t" "var x func f 'a' x @ var y end f"
    let m := (({} : Machine).after (.direct program)).after (.execute 2)
    let run := fun i => Nat.repeat (fun m : Machine => (m.execute 1).1) i m
    let frame : Frame := ⟨.block, program, program.span, 10, 0⟩
    m.Reachable ∧ m.frames = .ofList [frame] ∧ m.Completes frame [] run 6 ∧
      (run 5).store.scopes.binds 1 "y" = true ∧ (run 6).store.scopes.binds 1 "y" = false ∧
      ∀ name, (run 6).store.scopes.binds 0 name = m.store.scopes.binds 0 name := by
  intro program m run frame
  have reached : m.Reachable := (Reachable.initial.call (.direct program)).call (.execute 2)
  have frames : m.frames = .ofList [frame] := Stack.eq_of_items (by decide +kernel)
  have ready : ∀ i, i < 6 → (run i).Ready := by
    have each : ∀ i, i < 6 → (run i).fault = none ∧ (run i).request = none ∧
        (run i).isRunning = true ∧ (run i).interrupted = false := by decide +kernel
    intro i within
    obtain ⟨noFault, noRequest, running, undisturbed⟩ := each i within
    exact ⟨noFault, noRequest, running, undisturbed⟩
  have deep : ∀ i, i < 6 → 0 < i → 1 < (run i).frames.items.length := by decide +kernel
  have completes : m.Completes frame [] run 6 :=
    { begins := rfl
      ready := ready 0 (by decide)
      moved := by decide
      goes := fun i within => .cycle (ready i within)
      inside := fun i positive within => deep i within positive
      ends := ⟨11, Stack.eq_of_items (by decide +kernel)⟩ }
  have kept := ((variables_stay_in_their_scope reached frames).2.2 run 6 (.word "f") completes
    (by decide +kernel) (by decide +kernel)).2.2.1 (.inr ⟨"f", rfl⟩)
  refine ⟨reached, frames, completes, by decide +kernel, ?_, fun name => kept.1 0 name⟩
  rw [kept.1]
  decide +kernel

end Machine
end StackScript
