import Std.Data.ExtTreeMap.Lemmas
import StackScript.Proofs.Reach
import StackScript.Proofs.Segments

/-!
When two runs do the same at different places. Stores are alike if the functions of one name have the
same operations; a frame matches another one if that has the same operations ahead of it, and after
them perhaps some more. An operation does the same at sites that match, as long as the first of them
sees enough of the code.
-/
namespace StackScript

def Body.ops (body : Body) : List Op :=
  body.program.ops body.span

def Fault.unplaced (fault : Fault) : Fault :=
  { fault with place := none }

def Event.unplaced : Event → Event
  | .failed fault => .failed fault.unplaced
  | event => event

theorem Event.eq_or_failed {event other : Event} (same : event.unplaced = other.unplaced) :
    event = other ∨ ∃ fault cause, event = .failed fault ∧ other = .failed cause := by
  cases event with
  | failed fault =>
    cases other with
    | failed cause => exact .inr ⟨fault, cause, rfl, rfl⟩
    | _ => cases same
  | _ =>
    cases other with
    | failed cause => cases same
    | _ => exact .inl same

structure Store.Like (first second : Store) : Prop where
  values : first.values = second.values
  scopes : first.scopes = second.scopes
  functions : ∀ name : String,
    (first.functions[name]?).map Body.ops = (second.functions[name]?).map Body.ops

namespace Store.Like

variable {first second : Store}

theorem refl (store : Store) : store.Like store :=
  ⟨rfl, rfl, fun _ => rfl⟩

theorem withValues (like : first.Like second) (values : Stack Value) :
    { first with values }.Like { second with values } :=
  ⟨rfl, like.scopes, like.functions⟩

theorem push (like : first.Like second) (value : Value) :
    { first with values := first.values.push value }.Like
      { second with values := second.values.push value } :=
  ⟨congrArg (Stack.push value) like.values, like.scopes, like.functions⟩

theorem withScopes (like : first.Like second) (f : Scopes → Scopes) :
    { first with scopes := f first.scopes }.Like { second with scopes := f second.scopes } :=
  ⟨like.values, congrArg f like.scopes, like.functions⟩

theorem define (like : first.Like second) (name : String) {body other : Body}
    (same : body.ops = other.ops) :
    { first with functions := first.functions.insert name body }.Like
      { second with functions := second.functions.insert name other } := by
  refine ⟨like.values, like.scopes, ?_⟩
  intro wanted
  rw [Std.ExtTreeMap.getElem?_insert, Std.ExtTreeMap.getElem?_insert]
  split
  · exact congrArg some same
  · exact like.functions wanted

theorem wantsLoop (like : first.Like second) : first.wantsLoop = second.wantsLoop := by
  rw [Store.wantsLoop, Store.wantsLoop, like.values]

end Store.Like

def Frame.ahead (frame : Frame) : List Op :=
  frame.program.ops ⟨frame.next, frame.span.stop⟩

theorem Frame.ahead_resume (frame : Frame) (steps : Nat) :
    (frame.resumeAt (frame.next + steps)).ahead = frame.ahead.drop steps :=
  frame.program.ops_drop frame.next frame.span.stop steps

theorem Frame.ahead_cons {frame : Frame} {op : Op} {rest : List Op} (ahead : frame.ahead = op :: rest) :
    frame.next < frame.span.stop ∧ frame.program.op? frame.next = some op := by
  have first := congrArg (·[0]?) ahead
  rw [Frame.ahead, Program.getElem?_ops, List.getElem?_cons_zero] at first
  split at first
  · exact ⟨‹_›, first⟩
  · cases first

/-- The second frame does what is ahead of the first one, and then `rest`. -/
structure Frame.Matches (rest : List Op) (first second : Frame) : Prop where
  kind : first.kind = second.kind
  scope : first.scope = second.scope
  ahead : second.ahead = first.ahead ++ rest
  body : first.kind = .loop →
    second.program.ops second.span = first.program.ops first.span ++ rest

theorem Frame.Matches.start (kind : Frame.Kind) (scope : Nat) {program other : Program}
    {span range : Span} (same : program.ops span = other.ops range) :
    (Frame.start kind program span scope).Matches [] (.start kind other range scope) := by
  have whole : other.ops range = program.ops span ++ [] := by rw [same, List.append_nil]
  exact ⟨rfl, rfl, whole, fun _ => whole⟩

def Site.ahead (site : Site) : List Op :=
  site.program.ops ⟨site.address, site.limit⟩

structure Site.Inside (site : Site) : Prop where
  inside : site.address < site.limit
  bounded : site.limit ≤ site.program.size

structure Site.Matches (rest : List Op) (first second : Site) : Prop where
  scope : first.scope = second.scope
  ahead : second.ahead = first.ahead ++ rest
  inside : first.Inside
  other : second.Inside

theorem Site.Inside.length {site : Site} (within : site.Inside) :
    site.ahead.length = site.limit - site.address :=
  site.program.length_ops within.bounded

theorem Site.Inside.nonempty {site : Site} (within : site.Inside) : 0 < site.ahead.length := by
  have length := within.length
  have inside := within.inside
  omega

theorem Site.operand_eq (site : Site) : site.operand? = site.ahead[1]? := by
  rw [ahead, Program.getElem?_ops]
  rfl

inductive Block.Like (first second : Site) : Block → Block → Prop where
  | found (middle : Option Nat) (close : Nat) (early : close < first.ahead.length)
      (before : ∀ place, middle = some place → place < close) :
      Like first second
        ⟨first.address, middle.map (first.address + ·), first.address + close⟩
        ⟨second.address, middle.map (second.address + ·), second.address + close⟩

inductive Control.Like (first second : Site) : Control → Control → Prop where
  | proceed : Like first second .proceed .proceed
  | jump (steps : Nat) (within : steps ≤ first.ahead.length) :
      Like first second (.jump (first.address + steps)) (.jump (second.address + steps))
  | enter (steps : Nat) (within : steps ≤ first.ahead.length) {inner other : Frame}
      (matched : inner.Matches [] other) :
      Like first second (.enter (first.address + steps) inner)
        (.enter (second.address + steps) other)
  | print (text : String) : Like first second (.print text) (.print text)
  | ask (request : Request) : Like first second (.ask request) (.ask request)

namespace Control.Like

variable {first second : Site} {block other : Block}

theorem behind (like : Block.Like first second block other) :
    Like first second (.jump (block.close + 1)) (.jump (other.close + 1)) := by
  obtain ⟨middle, close, early, before⟩ := like
  exact .jump (close + 1) early

theorem into (like : Block.Like first second block other) (kind : Frame.Kind) (scope : Nat)
    {span range : Span} (same : first.program.ops span = second.program.ops range) :
    Like first second (.enter (block.close + 1) (first.frame kind span scope))
      (.enter (other.close + 1) (second.frame kind range scope)) := by
  obtain ⟨middle, close, early, before⟩ := like
  exact .enter (close + 1) early (.start kind scope same)

end Control.Like

/-- Two changes came out alike. Unless they have to fail in the same way, nothing is said about the
second when the first fails. -/
inductive Change.Agrees {α β : Type} (strict : Prop) (same : α → β → Prop) :
    EStateM.Result Fault Store α → EStateM.Result Fault Store β → Prop where
  | works {a : α} {b : β} {store other : Store} (equal : same a b) (like : store.Like other) :
      Agrees strict same (.ok a store) (.ok b other)
  | fails {fault cause : Fault} {store other : Store} (equal : fault.unplaced = cause.unplaced)
      (like : store.Like other) : Agrees strict same (.error fault store) (.error cause other)
  | parts (loose : ¬strict) {fault : Fault} {store : Store}
      (other : EStateM.Result Fault Store β) : Agrees strict same (.error fault store) other

def Change.Matches {α β : Type} (strict : Prop) (same : α → β → Prop) (first : Change α)
    (second : Change β) : Prop :=
  ∀ store other : Store, store.Like other → Change.Agrees strict same (first store) (second other)

namespace Change.Matches

variable {α β γ δ : Type} {strict : Prop} {same : α → β → Prop} {also : γ → δ → Prop}

theorem pure {a : α} {b : β} (equal : same a b) :
    Matches strict same (Pure.pure a) (Pure.pure b) :=
  fun _ _ like => .works equal like

theorem throw (fault : Fault) : Matches strict same (throw fault) (throw fault) :=
  fun _ _ like => .fails rfl like

theorem part (loose : ¬strict) (fault : Fault) (second : Change β) :
    Matches strict same (MonadExcept.throw fault) second :=
  fun _ _ _ => .parts loose _

theorem bind {first : Change α} {second : Change β} {next : α → Change γ} {further : β → Change δ}
    (start : Matches strict same first second)
    (later : ∀ a b, same a b → Matches strict also (next a) (further b)) :
    Matches strict also (first >>= next) (second >>= further) := by
  intro store other like
  rw [bind_eq, bind_eq]
  have agrees := start store other like
  generalize first store = result, second other = outcome at agrees
  cases agrees with
  | works equal like => exact later _ _ equal _ _ like
  | fails equal like => exact .fails equal like
  | parts loose => exact .parts loose _

theorem andThen {first second : Change α} {next : α → Change γ} {further : α → Change δ}
    (start : Matches strict Eq first second)
    (later : ∀ a, Matches strict also (next a) (further a)) :
    Matches strict also (first >>= next) (second >>= further) := by
  apply start.bind
  rintro a _ rfl
  exact later a

theorem get : Matches strict Store.Like get get :=
  fun _ _ like => .works like like

theorem require (result : Except Fault α) :
    Matches strict Eq (Change.require result) (Change.require result) := by
  cases result with
  | ok a => exact .pure rfl
  | error fault => exact .throw fault

theorem onValues (change : EStateM Fault (Stack Value) α) :
    Matches strict Eq (Change.onValues change) (Change.onValues change) := by
  intro store other like
  unfold Change.onValues
  rw [like.values]
  cases change other.values with
  | ok a values => exact .works rfl (like.withValues values)
  | error fault values => exact .fails rfl (like.withValues values)

theorem push (value : Value) : Matches strict Eq (Change.push value) (Change.push value) :=
  fun _ _ like => .works rfl (like.push value)

theorem pushes {first second : Site} (value : Value) :
    Matches strict (Control.Like first second)
      (do Change.push value; return .proceed) (do Change.push value; return .proceed) := by
  apply (push value).andThen
  intro _
  exact .pure .proceed

theorem onScopes (f : Scopes → Scopes) :
    Matches strict Eq (Change.onScopes f) (Change.onScopes f) :=
  fun _ _ like => .works rfl (like.withScopes f)

theorem define (name : String) {body other : Body} (equal : body.ops = other.ops) :
    Matches strict Eq
      (modify fun store : Store => { store with functions := store.functions.insert name body })
      (modify fun store : Store => { store with functions := store.functions.insert name other }) :=
  fun _ _ like => .works rfl (like.define name equal)

end Change.Matches

namespace Site.Matches

variable {rest : List Op} {first second : Site}

theorem ops_eq (matched : Matches rest first second) (start : Nat) {stop : Nat}
    (within : stop ≤ first.ahead.length) :
    first.program.ops ⟨first.address + start, first.address + stop⟩ =
      second.program.ops ⟨second.address + start, second.address + stop⟩ := by
  have inside := matched.inside.inside
  have further := matched.other.inside
  have short := matched.inside.length
  have long := matched.other.length
  have total := congrArg List.length matched.ahead
  rw [List.length_append] at total
  have nearer : first.address + stop ≤ first.limit := by omega
  have farther : second.address + stop ≤ second.limit := by omega
  have ahead := matched.ahead
  unfold Site.ahead at ahead within
  rw [first.program.ops_within nearer, second.program.ops_within farther, ahead,
    List.take_append_of_le_length within]

theorem body (matched : Matches rest first second) {block other : Block}
    (like : Block.Like first second block other) :
    first.program.ops block.body = second.program.ops other.body := by
  obtain ⟨middle, close, early, before⟩ := like
  cases middle with
  | none => exact matched.ops_eq 1 (Nat.le_of_lt early)
  | some middle =>
    have sooner := before middle rfl
    exact matched.ops_eq 1 (by omega)

theorem operand (matched : Matches rest first second) :
    second.operand? = first.operand? ∨
      first.operand? = none ∧ rest ≠ [] ∧ second.operand? = rest.head? := by
  have nonempty := matched.inside.nonempty
  rw [operand_eq, operand_eq, matched.ahead]
  rcases Nat.lt_or_ge 1 first.ahead.length with longer | last
  · exact .inl (List.getElem?_append_left longer)
  · -- the first stands at its last operation, and the second sees what the rest begins with
    have one : first.ahead.length = 1 := by omega
    rw [List.getElem?_append_right last, one, List.getElem?_eq_none last]
    cases rest with
    | nil => exact .inl rfl
    | cons op rest => exact .inr ⟨rfl, List.cons_ne_nil op rest, rfl⟩

theorem block (matched : Matches rest first second) (branches : Bool) :
    Change.Matches (rest = []) (Block.Like first second) (first.block branches)
      (second.block branches) := by
  unfold Site.block
  have ahead := matched.ahead
  unfold Site.ahead at ahead
  rw [Block.find_eq_seek matched.inside.inside matched.inside.bounded,
    Block.find_eq_seek matched.other.inside matched.other.bounded, ahead]
  cases found : Block.seek 0 none 0 (first.program.ops ⟨first.address, first.limit⟩) with
  | none =>
    by_cases strict : rest = []
    · subst strict
      rw [List.append_nil, found]
      intro store other like
      exact .fails rfl like
    · exact .part strict _ _
  | some result =>
    obtain ⟨middle, close⟩ := result
    have unknown : ∀ place, (none : Option Nat) = some place → place < 0 := nofun
    obtain ⟨-, early, before⟩ := Block.seek_bounds unknown found
    rw [Block.seek_append found]
    refine .pure ?_
    rw [Nat.zero_add] at early
    cases branches with
    | false => exact .found none close early nofun
    | true => exact .found middle close early before

end Site.Matches

namespace Op

variable {rest : List Op} {first second : Site}

theorem branch_matches (matched : Site.Matches rest first second) :
    Change.Matches (rest = []) (Control.Like first second) (performBranch first)
      (performBranch second) := by
  unfold performBranch
  rw [← matched.scope]
  apply Change.Matches.andThen (.onValues _)
  intro value
  apply Change.Matches.andThen (.require _)
  intro condition
  apply (matched.block true).bind
  intro block other like
  cases condition with
  | true => exact .pure (.into like .block first.scope (matched.body like))
  | false =>
    have behind := Control.Like.behind like
    have into := @Control.Like.into first second block other like
    obtain ⟨middle, close, early, before⟩ := like
    cases middle with
    | none => exact .pure behind
    | some middle =>
      exact .pure (into .block first.scope (matched.ops_eq (middle + 1) (Nat.le_of_lt early)))

theorem loop_matches (matched : Site.Matches rest first second) :
    Change.Matches (rest = []) (Control.Like first second) (performLoop first)
      (performLoop second) := by
  unfold performLoop
  rw [← matched.scope]
  apply (matched.block false).bind
  intro block other like
  apply Change.Matches.get.bind
  intro before _ same
  rw [← same.wantsLoop]
  apply Change.Matches.andThen (.require _)
  intro wanted
  cases wanted with
  | true =>
    apply Change.Matches.andThen (.onScopes _)
    intro _
    apply Change.Matches.get.bind
    intro store _ same
    rw [← same.scopes]
    exact .pure (.into like .loop store.scopes.newest (matched.body like))
  | false => exact .pure (.behind like)

theorem define_matches (matched : Site.Matches rest first second) :
    Change.Matches (rest = []) (Control.Like first second) (performDefine first)
      (performDefine second) := by
  unfold performDefine
  rcases matched.operand with same | ⟨none, more, -⟩
  · rw [same]
    cases named : first.operand? with
    | none => exact .throw _
    | some operand =>
      cases operand with
      | functionName name =>
        apply (matched.block false).bind
        intro block other like
        have behind := Control.Like.behind like
        obtain ⟨middle, close, early, before⟩ := like
        have same : Body.ops ⟨first.program, ⟨first.address + 2, first.address + close⟩⟩ =
            Body.ops ⟨second.program, ⟨second.address + 2, second.address + close⟩⟩ :=
          matched.ops_eq 2 (Nat.le_of_lt early)
        apply Change.Matches.andThen (.define name same)
        intro _
        exact .pure behind
      | _ => exact .throw _
  · rw [none]
    exact .part more _ _

theorem declare_matches (matched : Site.Matches rest first second) :
    Change.Matches (rest = []) (Control.Like first second) (performDeclare first)
      (performDeclare second) := by
  unfold performDeclare
  rcases matched.operand with same | ⟨none, more, -⟩
  · rw [same]
    cases named : first.operand? with
    | none => exact .throw _
    | some operand =>
      cases operand with
      | variableName name =>
        rw [Site.operand_eq] at named
        have within : 2 ≤ first.ahead.length := (List.getElem?_eq_some_iff.mp named).1
        rw [← matched.scope]
        apply Change.Matches.andThen (.onScopes _)
        intro _
        exact .pure (.jump 2 within)
      | _ => exact .throw _
  · rw [none]
    exact .part more _ _

theorem word_matches (matched : Site.Matches rest first second) (fresh : rest.head? ≠ some .assign)
    (name : String) :
    Change.Matches (rest = []) (Control.Like first second) (performWord first name)
      (performWord second name) := by
  have assigned : (second.operand? = some .assign) = (first.operand? = some .assign) := by
    rcases matched.operand with same | ⟨none, -, next⟩
    · rw [same]
    · rw [none, next]
      exact propext ⟨fun assigns => absurd assigns fresh, nofun⟩
  unfold performWord
  simp only [assigned, ← matched.scope]
  apply Change.Matches.get.bind
  intro store other like
  have functions := like.functions name
  cases defined : store.functions[name]? with
  | some body =>
    cases redefined : other.functions[name]? with
    | none =>
      rw [defined, redefined] at functions
      cases functions
    | some code =>
      rw [defined, redefined] at functions
      apply Change.Matches.andThen (.onScopes _)
      intro _
      apply Change.Matches.get.bind
      intro store _ like
      rw [← like.scopes]
      exact .pure (.enter 1 matched.inside.nonempty
        (.start .call _ (Option.some.inj functions)))
  | none =>
    cases redefined : other.functions[name]? with
    | some code =>
      rw [defined, redefined] at functions
      cases functions
    | none =>
      by_cases named : first.operand? = some .assign
      · simp only [named, ↓reduceIte]
        exact .pushes _
      · simp only [named, ↓reduceIte]
        apply Change.Matches.get.bind
        intro store _ like
        rw [← like.scopes]
        cases store.scopes.get? first.scope name with
        | none => exact .throw _
        | some value => exact .pushes value

theorem perform_matches (matched : Site.Matches rest first second)
    (fresh : rest.head? ≠ some .assign) (op : Op) :
    Change.Matches (rest = []) (Control.Like first second) (op.perform first)
      (op.perform second) := by
  cases op with
  | branch => exact branch_matches matched
  | loop => exact loop_matches matched
  | define => exact define_matches matched
  | declare => exact declare_matches matched
  | word name => exact word_matches matched fresh name
  | input => exact .pure (.ask .line)
  | otherwise | close | functionName | variableName => exact .pure .proceed
  | push value => exact .pushes value
  | dup =>
    apply Change.Matches.andThen (.onValues _)
    intro value
    apply Change.Matches.andThen (.require _)
    intro n
    exact .pushes _
  | pop =>
    apply Change.Matches.andThen (.onValues _)
    intro _
    exact .pure .proceed
  | roll =>
    apply Change.Matches.andThen (.onValues _)
    intro _
    exact .pure .proceed
  | apply operator =>
    apply Change.Matches.andThen (.onValues _)
    intro pair
    apply Change.Matches.andThen (.require _)
    intro value
    exact .pushes _
  | not =>
    apply Change.Matches.andThen (.onValues _)
    intro value
    apply Change.Matches.andThen (.require _)
    intro result
    exact .pushes _
  | dump =>
    apply Change.Matches.andThen (.onValues _)
    intro value
    apply Change.Matches.andThen (.require _)
    intro n
    exact .pure (.print _)
  | write =>
    apply Change.Matches.andThen (.onValues _)
    intro value
    exact .pure (.print _)
  | attach =>
    apply Change.Matches.andThen (.onValues _)
    intro path
    exact .pure (.ask _)
  | assign =>
    unfold perform
    rw [← matched.scope]
    apply Change.Matches.andThen (.onValues _)
    intro name
    apply Change.Matches.andThen (.onValues _)
    intro value
    apply Change.Matches.andThen (.onScopes _)
    intro _
    exact .pure .proceed

end Op
end StackScript
