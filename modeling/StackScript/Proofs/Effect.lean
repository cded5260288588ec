import StackScript.Op.Perform

/-!
What single operations can do to the store, said once for all of them. An operation that fails has
taken at most two values off; one that succeeds changes the values alone, or does what its rule says
to the scopes or the functions.
-/
namespace StackScript

theorem Fault.locate_same (fault : Fault) : fault.locate fault.place = fault := by
  obtain ⟨kind, _ | place, detail⟩ := fault <;> rfl

theorem Block.find_place {program : Program} {opener limit : Nat} {branches : Bool} {fault : Fault}
    (failed : find program opener limit branches = .error fault) :
    fault.place = program.location? opener := by
  unfold find at failed
  split at failed
  · cases failed
  · cases failed
    rfl

def Op.faultKinds : List Fault.Kind :=
  [.malformed, .indexOutOfRange, .divisionByZero, .typeMismatch, .unknownWord, .stackUnderflow]

inductive Site.Raises (site : Site) (fault : Fault) : Prop where
  | plain (unplaced : fault.place = none) (kind : fault.kind ∈ Op.faultKinds)
  | unclosed (branches : Bool)
      (missing : Block.find site.program site.address site.limit branches = .error fault)

def Op.asks : Op → Bool
  | .input | .attach => true
  | _ => false

def Control.stays : Control → Bool
  | .proceed | .print _ | .ask _ => true
  | .jump _ | .enter _ _ => false

theorem Control.resume_stays {control : Control} (stays : control.stays) (address : Nat) :
    control.resume address = address + 1 := by
  cases control <;> first | rfl | cases stays

inductive Op.Effect (site : Site) (store : Store) :
    Op → EStateM.Result Fault Store Control → Prop where
  | fails {op : Op} {fault : Fault} (values : Stack Value) (lost : Nat) (few : lost ≤ 2)
      (left : values.items = store.values.items.drop lost) (raised : site.Raises fault) :
      Effect site store op (.error fault { store with values })
  | works {op : Op} (control : Control) (values : Stack Value) (stays : control.stays)
      (asks : ∀ request, control = .ask request → op.asks) :
      Effect site store op (.ok control { store with values })
  | takesBranch (block : Block) (span : Span) (values : Stack Value)
      (found : Block.find site.program site.address site.limit true = .ok block)
      (chosen : span = block.body ∨ block.alternative = some span) :
      Effect site store .branch
        (.ok (.enter (block.close + 1) (site.frame .block span site.scope)) { store with values })
  | skipsBranch (block : Block) (values : Stack Value)
      (found : Block.find site.program site.address site.limit true = .ok block) :
      Effect site store .branch (.ok (.jump (block.close + 1)) { store with values })
  | beginsLoop (block : Block)
      (found : Block.find site.program site.address site.limit false = .ok block) :
      Effect site store .loop
        (.ok (.enter (block.close + 1) (site.frame .loop block.body store.scopes.depth))
          { store with scopes := store.scopes.enter site.scope })
  | skipsLoop (block : Block)
      (found : Block.find site.program site.address site.limit false = .ok block) :
      Effect site store .loop (.ok (.jump (block.close + 1)) store)
  | defines (name : String) (block : Block) (named : site.operand? = some (.functionName name))
      (found : Block.find site.program site.address site.limit false = .ok block) :
      Effect site store .define
        (.ok (.jump (block.close + 1))
          { store with
            functions := store.functions.insert name
              ⟨site.program, ⟨site.address + 2, block.close⟩⟩ })
  | declares (name : String) (named : site.operand? = some (.variableName name)) :
      Effect site store .declare
        (.ok (.jump (site.address + 2))
          { store with scopes := store.scopes.define site.scope name (.number 0.0) })
  | assigns (name : String) (value : Value) (values : Stack Value) :
      Effect site store .assign
        (.ok .proceed { store with values, scopes := store.scopes.assign site.scope name value })
  | calls (name : String) (body : Body) (defined : store.functions[name]? = some body) :
      Effect site store (.word name)
        (.ok (.enter (site.address + 1) (.start .call body.program body.span store.scopes.depth))
          { store with scopes := store.scopes.enter site.scope })

namespace Change

theorem bind_eq {α β : Type} (change : Change α) (next : α → Change β) (store : Store) :
    (change >>= next) store =
      match change store with
      | .ok a store => next a store
      | .error fault store => .error fault store := by
  change EStateM.bind change next store = _
  unfold EStateM.bind
  cases change store <;> rfl

theorem pop_eq (store : Store) : pop store =
    match store.values.top? with
    | some value => .ok value { store with values := store.values.drop }
    | none => .error { kind := .stackUnderflow } store := by
  simp only [pop, onValues, Stack.pop]
  cases store.values.top? <;> rfl

theorem top_eq (store : Store) : top store =
    match store.values.top? with
    | some value => .ok value store
    | none => .error { kind := .stackUnderflow } store := by
  simp only [top, onValues, Stack.top]
  cases store.values.top? <;> rfl

theorem require_eq {α : Type} (result : Except Fault α) (store : Store) : require result store =
    match result with
    | .ok a => .ok a store
    | .error fault => .error fault store := by
  cases result <;> rfl

theorem onScopes_eq (f : Scopes → Scopes) (store : Store) :
    onScopes f store = .ok () { store with scopes := f store.scopes } := rfl

theorem get_eq (store : Store) : (get : Change Store) store = .ok store store := rfl

theorem pure_eq {α : Type} (a : α) (store : Store) : (pure a : Change α) store = .ok a store := rfl

end Change

theorem toNumber_fault {value : Value} {fault : Fault} (failed : value.toNumber = .error fault) :
    fault.place = none ∧ fault.kind = .typeMismatch := by
  unfold Value.toNumber at failed
  split at failed
  · cases failed
  · cases failed
    exact ⟨rfl, rfl⟩

theorem isTruthy_fault {value : Value} {fault : Fault} (failed : value.isTruthy = .error fault) :
    fault.place = none ∧ fault.kind = .typeMismatch := by
  cases number : value.toNumber with
  | ok n => simp [Value.isTruthy, number, Except.map] at failed
  | error e =>
    simp only [Value.isTruthy, number, Except.map, Except.error.injEq] at failed
    exact failed ▸ toNumber_fault number

theorem not_fault {value : Value} {fault : Fault} (failed : value.not = .error fault) :
    fault.place = none ∧ fault.kind = .typeMismatch := by
  cases number : value.toNumber with
  | ok n => simp [Value.not, number, Except.map] at failed
  | error e =>
    simp only [Value.not, number, Except.map, Except.error.injEq] at failed
    exact failed ▸ toNumber_fault number

theorem wantsLoop_fault {store : Store} {fault : Fault} (failed : store.wantsLoop = .error fault) :
    fault.place = none ∧ fault.kind = .typeMismatch := by
  unfold Store.wantsLoop at failed
  split at failed
  · exact isTruthy_fault failed
  · cases failed

theorem calculate_fault {f : Float → Float → Except Fault Float} {lhs rhs : Value} {fault : Fault}
    (inner : ∀ m n e, f m n = .error e → e.place = none ∧ e.kind = .divisionByZero)
    (failed : Operator.calculate f lhs rhs = .error fault) :
    fault.place = none ∧ (fault.kind = .typeMismatch ∨ fault.kind = .divisionByZero) := by
  unfold Operator.calculate at failed
  cases left : lhs.toNumber with
  | error e =>
    simp only [left, bind, Except.bind, Except.error.injEq] at failed
    exact failed ▸ ⟨(toNumber_fault left).1, .inl (toNumber_fault left).2⟩
  | ok m =>
    cases right : rhs.toNumber with
    | error e =>
      simp only [left, right, bind, Except.bind, Except.error.injEq] at failed
      exact failed ▸ ⟨(toNumber_fault right).1, .inl (toNumber_fault right).2⟩
    | ok n =>
      cases result : f m n with
      | error e =>
        simp only [left, right, result, bind, Except.bind, Except.error.injEq] at failed
        exact failed ▸ ⟨(inner m n e result).1, .inr (inner m n e result).2⟩
      | ok x => simp [left, right, result, bind, Except.bind, pure, Except.pure] at failed

theorem dividing_fault {f : Float → Float → Float} (m n : Float) (e : Fault)
    (failed : Operator.dividing f m n = .error e) : e.place = none ∧ e.kind = .divisionByZero := by
  unfold Operator.dividing at failed
  split at failed
  · cases failed
    exact ⟨rfl, rfl⟩
  · cases failed

theorem apply_fault {operator : Operator} {lhs rhs : Value} {fault : Fault}
    (failed : operator.apply lhs rhs = .error fault) :
    fault.place = none ∧ (fault.kind = .typeMismatch ∨ fault.kind = .divisionByZero) := by
  have never : ∀ f : Float → Float → Float, ∀ m n e,
      (Except.ok (f m n) : Except Fault Float) = .error e → e.place = none ∧ e.kind = .divisionByZero := by
    intro f m n e impossible
    cases impossible
  cases operator with
  | sum => exact calculate_fault (never _) failed
  | difference => exact calculate_fault (never _) failed
  | product => exact calculate_fault (never _) failed
  | quotient => exact calculate_fault dividing_fault failed
  | remainder => exact calculate_fault dividing_fault failed
  | equal => cases failed
  | greater => cases failed
  | less => cases failed

namespace Op

variable {site : Site} {store : Store}

theorem fails_underflow {op : Op} (values : Stack Value) (lost : Nat) (few : lost ≤ 2)
    (left : values.items = store.values.items.drop lost) :
    Effect site store op (.error { kind := .stackUnderflow } { store with values }) :=
  .fails values lost few left (.plain rfl (by decide))

theorem fails_mismatch {op : Op} {fault : Fault} (values : Stack Value) (lost : Nat)
    (few : lost ≤ 2) (left : values.items = store.values.items.drop lost)
    (cause : fault.place = none ∧ fault.kind = .typeMismatch) :
    Effect site store op (.error fault { store with values }) :=
  .fails values lost few left (.plain cause.1 (by rw [cause.2]; decide))

theorem drop_items_one (values : Stack Value) : values.drop.items = values.items.drop 1 := by
  simp

theorem drop_items_two (values : Stack Value) :
    values.drop.drop.items = values.items.drop 2 := by
  simp [← List.drop_one, List.drop_drop]

theorem roll_fault {values rest : Stack Value} {fault : Fault}
    (failed : values.roll = .error fault rest) :
    fault = .shallowStack values.size ∧ rest = values := by
  unfold Stack.roll at failed
  split at failed
  · cases failed
  · cases failed
    exact ⟨rfl, rfl⟩

theorem popPair_eq (store : Store) : Change.onValues Stack.popPair store =
    match store.values.top? with
    | none => .error { kind := .stackUnderflow } store
    | some second =>
      match store.values.drop.top? with
      | none => .error { kind := .stackUnderflow } { store with values := store.values.drop }
      | some first => .ok (first, second) { store with values := store.values.drop.drop } := by
  obtain ⟨⟨items, size, size_eq⟩, scopes, functions⟩ := store
  cases items with
  | nil => rfl
  | cons second rest => cases rest <;> rfl

theorem branch_effect : Effect site store .branch (performBranch site store) := by
  simp only [performBranch, Change.bind_eq, Change.pop_eq, Change.require_eq, Site.block]
  cases store.values.top? with
  | none => exact fails_underflow store.values 0 (by omega) rfl
  | some condition =>
    dsimp only
    cases truthy : condition.isTruthy with
    | error fault =>
      exact fails_mismatch _ 1 (by omega) (drop_items_one _) (isTruthy_fault truthy)
    | ok truth =>
      dsimp only
      cases found : Block.find site.program site.address site.limit true with
      | error fault =>
        exact .fails _ 1 (by omega) (drop_items_one _) (.unclosed true found)
      | ok block =>
        dsimp only
        cases chosen : (if truth = true then some block.body else block.alternative) with
        | none => exact .skipsBranch block _ found
        | some span =>
          refine .takesBranch block span _ found ?_
          cases truth
          · exact .inr chosen
          · exact .inl (Option.some.inj chosen).symm

theorem loop_effect : Effect site store .loop (performLoop site store) := by
  simp only [performLoop, Change.bind_eq, Change.require_eq, Change.get_eq, Site.block]
  cases found : Block.find site.program site.address site.limit false with
  | error fault => exact .fails store.values 0 (by omega) rfl (.unclosed false found)
  | ok block =>
    dsimp only
    cases wants : store.wantsLoop with
    | error fault => exact fails_mismatch store.values 0 (by omega) rfl (wantsLoop_fault wants)
    | ok truth =>
      cases truth with
      | false => exact .skipsLoop block found
      | true =>
        simp only [↓reduceIte, Change.bind_eq, Change.onScopes_eq, Change.get_eq, Change.pure_eq,
          Scopes.newest_enter]
        exact .beginsLoop block found

theorem define_effect : Effect site store .define (performDefine site store) := by
  unfold performDefine
  have unnamed : Effect site store .define
      (.error { kind := .malformed, detail := "FUNC WITHOUT NAME" } store) :=
    .fails store.values 0 (by omega) rfl (.plain rfl (by simp [faultKinds]))
  cases named : site.operand? with
  | none => exact unnamed
  | some operand =>
    cases operand with
    | functionName name =>
      dsimp only
      rw [Change.bind_eq, Site.block, Change.require_eq]
      cases found : Block.find site.program site.address site.limit false with
      | error fault => exact .fails store.values 0 (by omega) rfl (.unclosed false found)
      | ok block => exact .defines name block named found
    | _ => exact unnamed

theorem declare_effect : Effect site store .declare (performDeclare site store) := by
  unfold performDeclare
  have unnamed : Effect site store .declare
      (.error { kind := .malformed, detail := "VAR WITHOUT NAME" } store) :=
    .fails store.values 0 (by omega) rfl (.plain rfl (by simp [faultKinds]))
  cases named : site.operand? with
  | none => exact unnamed
  | some operand =>
    cases operand with
    | variableName name => exact .declares name named
    | _ => exact unnamed

theorem word_effect (name : String) :
    Effect site store (.word name) (performWord site name store) := by
  simp only [performWord, Change.bind_eq, Change.get_eq]
  cases defined : store.functions[name]? with
  | some body =>
    simp only [Change.bind_eq, Change.onScopes_eq, Change.get_eq, Change.pure_eq,
      Scopes.newest_enter]
    exact .calls name body defined
  | none =>
    by_cases assigned : site.operand? = some .assign
    · simp only [assigned, ↓reduceIte]
      exact .works .proceed _ rfl nofun
    · simp only [assigned, ↓reduceIte, Change.bind_eq, Change.get_eq]
      cases store.scopes.get? site.scope name with
      | some value => exact .works .proceed _ rfl nofun
      | none => exact .fails store.values 0 (by omega) rfl (.plain rfl (by simp [faultKinds]))

theorem perform_effect (site : Site) (store : Store) (op : Op) :
    Effect site store op (op.perform site store) := by
  cases op with
  | branch => exact branch_effect
  | loop => exact loop_effect
  | define => exact define_effect
  | declare => exact declare_effect
  | word name => exact word_effect name
  | push value => exact .works .proceed _ rfl nofun
  | input => exact .works (.ask .line) store.values rfl fun _ _ => rfl
  | otherwise => exact .works .proceed store.values rfl nofun
  | close => exact .works .proceed store.values rfl nofun
  | functionName name => exact .works .proceed store.values rfl nofun
  | variableName name => exact .works .proceed store.values rfl nofun
  | dup =>
    simp only [perform, Change.bind_eq, Change.top_eq, Change.require_eq]
    cases store.values.top? with
    | none => exact fails_underflow store.values 0 (by omega) rfl
    | some value =>
      dsimp only
      cases number : value.toNumber with
      | error fault => exact fails_mismatch store.values 0 (by omega) rfl (toNumber_fault number)
      | ok n => exact .works .proceed _ rfl nofun
  | pop =>
    simp only [perform, Change.bind_eq, Change.pop_eq]
    cases store.values.top? with
    | none => exact fails_underflow store.values 0 (by omega) rfl
    | some value => exact .works .proceed _ rfl nofun
  | roll =>
    simp only [perform, Change.bind_eq, Change.onValues]
    cases rolled : store.values.roll with
    | ok _ values => exact .works .proceed _ rfl nofun
    | error fault values =>
      obtain ⟨rfl, rfl⟩ := roll_fault rolled
      exact .fails store.values 0 (by omega) rfl (.plain rfl (by simp [Fault.shallowStack, faultKinds]))
  | apply operator =>
    simp only [perform, Change.bind_eq, popPair_eq, Change.require_eq]
    cases store.values.top? with
    | none => exact fails_underflow store.values 0 (by omega) rfl
    | some second =>
      dsimp only
      cases store.values.drop.top? with
      | none => exact fails_underflow _ 1 (by omega) (drop_items_one _)
      | some first =>
        dsimp only
        cases result : operator.apply first second with
        | error fault =>
          exact .fails _ 2 (by omega) (drop_items_two _) (.plain (apply_fault result).1 (by
            rcases (apply_fault result).2 with kind | kind <;> rw [kind] <;> decide))
        | ok value => exact .works .proceed _ rfl nofun
  | not =>
    simp only [perform, Change.bind_eq, Change.pop_eq, Change.require_eq]
    cases store.values.top? with
    | none => exact fails_underflow store.values 0 (by omega) rfl
    | some value =>
      dsimp only
      cases result : value.not with
      | error fault => exact fails_mismatch _ 1 (by omega) (drop_items_one _) (not_fault result)
      | ok value => exact .works .proceed _ rfl nofun
  | dump =>
    simp only [perform, Change.bind_eq, Change.pop_eq, Change.require_eq]
    cases store.values.top? with
    | none => exact fails_underflow store.values 0 (by omega) rfl
    | some value =>
      dsimp only
      cases number : value.toNumber with
      | error fault =>
        exact fails_mismatch _ 1 (by omega) (drop_items_one _) (toNumber_fault number)
      | ok n => exact .works (.print _) _ rfl nofun
  | write =>
    simp only [perform, Change.bind_eq, Change.pop_eq]
    cases store.values.top? with
    | none => exact fails_underflow store.values 0 (by omega) rfl
    | some value => exact .works (.print _) _ rfl nofun
  | attach =>
    simp only [perform, Change.bind_eq, Change.pop_eq]
    cases store.values.top? with
    | none => exact fails_underflow store.values 0 (by omega) rfl
    | some value => exact .works (.ask _) _ rfl fun _ _ => rfl
  | assign =>
    simp only [perform, Change.bind_eq, Change.pop_eq]
    cases store.values.top? with
    | none => exact fails_underflow store.values 0 (by omega) rfl
    | some name =>
      dsimp only
      cases store.values.drop.top? with
      | none => exact fails_underflow _ 1 (by omega) (drop_items_one _)
      | some value => exact .assigns name.text value _

theorem effect_of_perform {op : Op} {result : EStateM.Result Fault Store Control}
    (performed : op.perform site store = result) : op.Effect site store result :=
  performed ▸ op.perform_effect site store

theorem enters_fresh {op : Op} {resume : Nat} {inner : Frame} {after : Store}
    (performed : op.perform site store = .ok (.enter resume inner) after) :
    inner.next = inner.span.start := by
  cases effect_of_perform performed with
  | works control values stays asks => cases stays
  | takesBranch | beginsLoop | calls => rfl

theorem enters_plain {op : Op} {resume : Nat} {inner : Frame} {after : Store}
    (performed : op.perform site store = .ok (.enter resume inner) after) :
    inner.kind ≠ .entry := by
  cases effect_of_perform performed with
  | works control values stays => cases stays
  | takesBranch | beginsLoop | calls => exact nofun

end Op
end StackScript
