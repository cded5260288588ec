import StackScript.Proofs.Likeness
import StackScript.Proofs.Slices
import StackScript.Proofs.Spelling

/-!
Formulas in postfix form. What is written as a formula leaves its value on the values that were there,
or fails where its first operator fails. By induction on the formula, whatever lies on the stack.
-/
namespace StackScript

inductive Formula where
  | number (text : String) (value : Float) (reads : readNumber? text = some value)
  | literal (quote : Char) (quotes : isQuote quote = true) (inside : String)
  | binary (operator : Operator) (lhs rhs : Formula)
  | not (operand : Formula)

namespace Formula

def sign : Operator → String
  | .sum => "+"
  | .difference => "-"
  | .product => "*"
  | .quotient => "/"
  | .remainder => "%"
  | .equal => "="
  | .greater => ">"
  | .less => "<"

def words : Formula → List String
  | number text _ _ => [text]
  | literal quote _ inside => [String.ofList (quote :: inside.toList ++ [quote])]
  | binary operator lhs rhs => lhs.words ++ rhs.words ++ [sign operator]
  | not operand => operand.words ++ ["not"]

def ops : Formula → List Op
  | number _ value _ => [.push (.number value)]
  | literal _ _ inside => [.push (.string inside)]
  | binary operator lhs rhs => lhs.ops ++ rhs.ops ++ [.apply operator]
  | not operand => operand.ops ++ [.not]

/-- The value of a formula, or what the first operator fails with and how many words come before that
operator, if `before` come before the formula. -/
def eval (before : Nat) : Formula → Except (Nat × Fault) Value
  | number _ value _ => .ok (.number value)
  | literal _ _ inside => .ok (.string inside)
  | binary operator lhs rhs => do
    let left ← lhs.eval before
    let right ← rhs.eval (before + lhs.words.length)
    (operator.apply left right).mapError fun fault =>
      (before + lhs.words.length + rhs.words.length, fault)
  | not operand => do
    let value ← operand.eval before
    value.not.mapError fun fault => (before + operand.words.length, fault)

def IsOperator (word : String) : Prop :=
  word = "not" ∨ ∃ operator : Operator, word = sign operator

structure Blames (words : List String) (before : Nat) (failure : Nat × Fault) : Prop where
  unplaced : failure.2.place = none
  operator : ∃ steps word, failure.1 = before + steps ∧ words[steps]? = some word ∧ IsOperator word

namespace Blames

variable {words : List String} {before : Nat} {failure : Nat × Fault}

theorem inside (blames : Blames words before failure) (more : List String) :
    Blames (words ++ more) before failure := by
  obtain ⟨unplaced, steps, word, same, there, operates⟩ := blames
  have within := (List.getElem?_eq_some_iff.mp there).1
  exact ⟨unplaced, steps, word, same, by rwa [List.getElem?_append_left within], operates⟩

theorem behind {front : List String} (blames : Blames words (before + front.length) failure) :
    Blames (front ++ words) before failure := by
  obtain ⟨unplaced, steps, word, same, there, operates⟩ := blames
  refine ⟨unplaced, front.length + steps, word, by omega, ?_, operates⟩
  rwa [List.getElem?_append_right (Nat.le_add_right ..), Nat.add_sub_cancel_left]

theorem last {word : String} {fault : Fault} (unplaced : fault.place = none)
    (operates : IsOperator word) : Blames [word] before (before, fault) :=
  ⟨unplaced, 0, word, rfl, rfl, operates⟩

end Blames

theorem eval_fails {formula : Formula} {before : Nat} {failure : Nat × Fault}
    (failed : formula.eval before = .error failure) : Blames formula.words before failure := by
  induction formula generalizing before with
  | number | literal => cases failed
  | binary operator lhs rhs onLeft onRight =>
    unfold eval at failed
    cases left : lhs.eval before with
    | error cause =>
      rw [left] at failed
      cases failed
      have blames := (onLeft left).inside (rhs.words ++ [sign operator])
      rwa [← List.append_assoc] at blames
    | ok value =>
      rw [left] at failed
      cases right : rhs.eval (before + lhs.words.length) with
      | error cause =>
        simp only [bind, Except.bind, right] at failed
        cases failed
        exact (onRight right).behind.inside [sign operator]
      | ok other =>
        simp only [bind, Except.bind, right] at failed
        cases result : operator.apply value other with
        | ok sum =>
          rw [result] at failed
          cases failed
        | error cause =>
          rw [result] at failed
          cases failed
          refine .behind ?_
          rw [List.length_append, ← Nat.add_assoc]
          exact .last (apply_fault result).1 (.inr ⟨operator, rfl⟩)
  | not operand ih =>
    unfold eval at failed
    cases inner : operand.eval before with
    | error cause =>
      rw [inner] at failed
      cases failed
      exact (ih inner).inside ["not"]
    | ok value =>
      simp only [inner, bind, Except.bind] at failed
      cases result : value.not with
      | ok negated =>
        rw [result] at failed
        cases failed
      | error cause =>
        rw [result] at failed
        cases failed
        exact .behind (.last (not_fault result).1 (.inl rfl))

theorem length_ops (formula : Formula) : formula.ops.length = formula.words.length := by
  induction formula with
  | number | literal => rfl
  | binary operator lhs rhs left right =>
    simp only [ops, words, List.length_append, left, right, List.length_singleton]
  | not operand ih => simp only [ops, words, List.length_append, ih, List.length_singleton]

theorem ofWord_sign (operator : Operator) : Op.ofWord (sign operator) = .apply operator := by
  cases operator <;> decide +kernel

theorem map_ofWord (formula : Formula) : formula.words.map Op.ofWord = formula.ops := by
  induction formula with
  | number text value reads => exact congrArg (· :: []) (Lexeme.ofWord_number reads)
  | literal quote quotes inside =>
    have read := Lexeme.ofWord_literal quotes inside.toList
    rw [String.ofList_toList] at read
    exact congrArg (· :: []) read
  | binary operator lhs rhs left right =>
    simp only [words, ops, List.map_append, left, right, List.map_singleton, ofWord_sign]
  | not operand ih =>
    have read : Op.ofWord "not" = .not := by decide +kernel
    simp only [words, ops, List.map_append, ih, List.map_singleton, read]

theorem ops_unnamed (formula : Formula) : ∀ op ∈ formula.ops, ∀ name, op ≠ .word name := by
  induction formula with
  | number | literal => simp [ops]
  | binary operator lhs rhs left right =>
    intro op member
    simp only [ops, List.mem_append, List.mem_singleton] at member
    rcases member with (first | second) | rfl
    · exact left op first
    · exact right op second
    · simp
  | not operand ih =>
    intro op member
    simp only [ops, List.mem_append, List.mem_singleton] at member
    rcases member with first | rfl
    · exact ih op first
    · simp

end Formula

/-- Words that are no names mean the same wherever they stand. -/
theorem Op.sequence_unnamed {texts : List String}
    (unnamed : ∀ op ∈ texts.map Op.ofWord, ∀ name, op ≠ .word name) (previous : Option Op) :
    Op.sequence previous texts = texts.map Op.ofWord := by
  induction texts generalizing previous with
  | nil => rfl
  | cons text texts ih =>
    obtain ⟨first, later⟩ := List.forall_mem_cons.mp unnamed
    have same : (Op.ofWord text).after previous = Op.ofWord text := by
      unfold Op.after
      split
      · exact absurd ‹_› (first _)
      · rfl
    rw [Op.sequence, ih later, same, List.map_cons]

theorem Formula.sequence_words (formula : Formula) : Op.sequence none formula.words = formula.ops := by
  have unnamed := formula.ops_unnamed
  rw [← formula.map_ofWord] at unnamed ⊢
  exact Op.sequence_unnamed unnamed none

def Store.given (store : Store) : Except Fault Value → EStateM.Result Fault Store Control
  | .ok value => .ok .proceed { store with values := store.values.push value }
  | .error fault => .error fault store

theorem Op.apply_performs (site : Site) (store : Store) (operator : Operator) (left right : Value) :
    (Op.apply operator).perform site
        { store with values := (store.values.push left).push right } =
      store.given (operator.apply left right) := by
  have dropped : ((store.values.push left).push right).drop.drop = store.values :=
    Stack.eq_of_items rfl
  rw [perform, Change.bind_eq, popPair_eq]
  simp only [Stack.top?, Stack.items_push, Stack.items_drop, List.head?_cons, List.tail_cons, dropped]
  rw [Change.bind_eq, Change.require_eq]
  cases operator.apply left right <;> rfl

theorem Op.not_performs (site : Site) (store : Store) (value : Value) :
    Op.not.perform site { store with values := store.values.push value } =
      store.given value.not := by
  have dropped : (store.values.push value).drop = store.values := Stack.eq_of_items rfl
  rw [perform, Change.bind_eq, Change.pop_eq]
  simp only [Stack.top?, Stack.items_push, List.head?_cons, dropped]
  rw [Change.bind_eq, Change.require_eq]
  cases value.not <;> rfl

namespace Machine

def behind (m : Machine) (frame : Frame) (below : List Frame) (size : Nat) (store : Store) : Machine :=
  { m with store, frames := .ofList (frame.resumeAt (frame.next + size) :: below) }

/-- What comes of `size` words that are to leave one value: each takes one step, up to the first
operator that fails. -/
inductive Computes (m : Machine) (frame : Frame) (below : List Frame) (size : Nat) :
    Except (Nat × Fault) Value → Prop where
  | value (value : Value)
      (ran : m.run size =
        (m.behind frame below size { m.store with values := m.store.values.push value }, .running)) :
      Computes m frame below size (.ok value)
  | fails (steps : Nat) (fault : Fault) (after : Machine) (ran : (m.run steps).2 = .running)
      (failed : m.run (steps + 1) =
        (after, .failed (fault.locate (frame.program.location? (frame.next + steps)))))
      (ended : after.isRunning = false) :
      Computes m frame below size (.error (frame.next + steps, fault))

variable {m : Machine} {frame : Frame} {below : List Frame}

theorem behind_none (frames : m.frames = .ofList (frame :: below)) :
    m.behind frame below 0 m.store = m := by
  obtain ⟨store, stack, request, fault, interrupted⟩ := m
  obtain rfl : stack = .ofList (frame :: below) := frames
  rfl

theorem behind_behind (first second : Nat) (store other : Store) :
    (m.behind frame below first store).behind (frame.resumeAt (frame.next + first)) below second other =
      m.behind frame below (first + second) other := by
  simp only [behind, Frame.resumeAt, Nat.add_assoc]

theorem run_behind {first : Nat} {store : Store} (ready : m.Ready)
    (ran : m.run first = (m.behind frame below first store, .running)) :
    (m.behind frame below first store).Ready ∧
      ∀ second, m.run (first + second) = (m.behind frame below first store).run second := by
  have running : (m.run first).2 = .running := by rw [ran]
  have next := run_ready ready first running
  rw [ran] at next
  refine ⟨next, ?_⟩
  intro second
  rw [run_add ready, if_pos running, ran]

namespace Computes

variable (ready : m.Ready) (inner : frame.kind.isTopLevel = false)
include ready inner

theorem last {size : Nat} {store : Store} {op : Op} {rest : List Op} {result : Except Fault Value}
    (ran : m.run size = (m.behind frame below size store, .running))
    (ahead : (frame.resumeAt (frame.next + size)).ahead = op :: rest)
    (performed : op.perform (siteOf (frame.resumeAt (frame.next + size))) store =
      m.store.given result) :
    Computes m frame below (size + 1)
      (result.mapError fun fault => (frame.next + size, fault)) := by
  obtain ⟨next, onward⟩ := run_behind ready ran
  obtain ⟨inside, here⟩ := Frame.ahead_cons ahead
  have due : (frame.kind.isTopLevel && !op.isTopLevel) = false := by rw [inner, Bool.false_and]
  have frames : (m.behind frame below size store).frames =
      .ofList (frame.resumeAt (frame.next + size) :: below) := rfl
  cases result with
  | ok value =>
    have stepped := step_works frames inside here due performed (by simp)
    refine .value value ?_
    rw [onward 1, run_quiet stepped]
    rfl
  | error fault =>
    have stepped := step_fails frames inside here due performed
    refine .fails size fault m.stop ?_ ?_ rfl
    · rw [ran]
    · rw [onward 1, run_loud stepped]
      rfl

omit inner in
theorem later {first second size : Nat} {store : Store} {failed : Nat × Fault}
    (ran : m.run first = (m.behind frame below first store, .running))
    (rest : (m.behind frame below first store).Computes (frame.resumeAt (frame.next + first)) below
      second (.error failed)) : m.Computes frame below size (.error failed) := by
  obtain ⟨-, onward⟩ := run_behind ready ran
  cases rest with
  | fails steps fault after running failed ended =>
    have total : frame.next + first + steps = frame.next + (first + steps) := Nat.add_assoc ..
    have same := @Computes.fails m frame below size (first + steps) fault after
    rw [onward, Nat.add_assoc, onward, ← total] at same
    exact same running failed ended

omit ready inner in
theorem resize {size other : Nat} {failed : Nat × Fault}
    (computes : m.Computes frame below size (.error failed)) :
    m.Computes frame below other (.error failed) := by
  cases computes with
  | fails steps fault after running failed ended => exact .fails steps fault after running failed ended

end Computes

/-- The words of a formula compute its value, whatever lies beneath. -/
theorem formula_computes (formula : Formula) {rest : List Op} (ready : m.Ready)
    (frames : m.frames = .ofList (frame :: below)) (inner : frame.kind.isTopLevel = false)
    (ahead : frame.ahead = formula.ops ++ rest) :
    m.Computes frame below formula.words.length (formula.eval frame.next) := by
  induction formula generalizing m frame rest with
  | number text value reads =>
    have begins : m.run 0 = (m.behind frame below 0 m.store, .running) := by
      rw [behind_none frames, run]
    exact @Computes.last m frame below ready inner 0 _ _ rest (.ok (.number value)) begins ahead rfl
  | literal quote quotes inside =>
    have begins : m.run 0 = (m.behind frame below 0 m.store, .running) := by
      rw [behind_none frames, run]
    exact @Computes.last m frame below ready inner 0 _ _ rest (.ok (.string inside)) begins ahead rfl
  | binary operator lhs rhs onLeft onRight =>
    rw [Formula.ops, List.append_assoc, List.append_assoc] at ahead
    have first := onLeft ready frames inner ahead
    rw [Formula.words, Formula.eval, List.length_append, List.length_append, List.length_singleton]
    generalize lhs.eval frame.next = result at first
    cases result with
    | error failed => exact first.resize
    | ok left =>
      cases first with
      | value _ ran =>
        obtain ⟨next, onward⟩ := run_behind ready ran
        have further : (frame.resumeAt (frame.next + lhs.words.length)).ahead =
            rhs.ops ++ ([.apply operator] ++ rest) := by
          rw [Frame.ahead_resume, ahead, ← lhs.length_ops, List.drop_left]
        have second := onRight next rfl inner further
        change Computes _ _ _ _ (rhs.eval (frame.next + lhs.words.length)) at second
        generalize rhs.eval (frame.next + lhs.words.length) = result at second
        cases result with
        | error failed => exact .later ready ran second
        | ok right =>
          cases second with
          | value _ reran =>
            rw [← onward, behind_behind] at reran
            have behind : (frame.resumeAt
                (frame.next + (lhs.words.length + rhs.words.length))).ahead =
                .apply operator :: rest := by
              rw [Frame.ahead_resume, ahead, ← lhs.length_ops, ← rhs.length_ops, ← List.drop_drop,
                List.drop_left, List.drop_left]
              rfl
            have computes := Computes.last ready inner reran behind
              (Op.apply_performs _ m.store operator left right)
            rw [← Nat.add_assoc frame.next] at computes
            exact computes
  | not operand ih =>
    rw [Formula.ops, List.append_assoc] at ahead
    have first := ih ready frames inner ahead
    rw [Formula.words, Formula.eval, List.length_append, List.length_singleton]
    generalize operand.eval frame.next = result at first
    cases result with
    | error failed => exact first.resize
    | ok value =>
      cases first with
      | value value ran =>
        have behind : (frame.resumeAt (frame.next + operand.words.length)).ahead = .not :: rest := by
          rw [Frame.ahead_resume, ahead, ← operand.length_ops, List.drop_left]
          rfl
        exact Computes.last ready inner ran behind (Op.not_performs _ m.store value)

theorem Ready.direct (m : Machine) (program : Program) : (m.direct program).Ready :=
  ⟨rfl, rfl, rfl, rfl⟩

theorem direct_stops {program : Program} {size : Nat} {store : Store} (whole : program.size ≤ size)
    (ran : (m.direct program).run size = ((m.direct program).behind
      (.start .block program program.span 0) [] size store, .running)) :
    (∀ cycles ≤ size, ((m.direct program).execute cycles).2 = .running) ∧
    ∀ cycles > size, (m.direct program).execute cycles =
      ({ m.stop with store, fault := none }, .stopped) := by
  have ready := Ready.direct m program
  obtain ⟨-, onward⟩ := run_behind ready ran
  have outside : program.size ≤ 0 + size := by omega
  have frames : ((m.direct program).behind (.start .block program program.span 0) [] size store).frames =
      .ofList [(Frame.start .block program program.span 0).resumeAt (0 + size)] := rfl
  have plain : Frame.Kind.block ≠ .loop := by decide
  have stepped := finish_closes frames outside plain rfl
  have last : (m.direct program).execute (size + 1) =
      ({ m.stop with store, fault := none }, .stopped) := by
    rw [execute_ready ready, onward, run_loud stepped]
    rfl
  constructor
  · intro cycles within
    refine execute_within ?_ within
    rw [execute_ready ready, ran]
  · intro cycles more
    rw [execute_beyond _ more, last]
    rw [last]
    simp

theorem direct_fails {program : Program} {size place : Nat} {fault : Fault} {location : Location}
    (computes : (m.direct program).Computes (.start .block program program.span 0) [] size
      (.error (place, fault)))
    (unplaced : fault.place = none) (stands : program.location? place = some location) :
    (∀ cycles ≤ place, ((m.direct program).execute cycles).2 = .running) ∧
    ∀ cycles > place,
      ((m.direct program).execute cycles).2 = .failed { fault with place := some location } ∧
      ((m.direct program).execute cycles).1.isRunning = false := by
  have ready := Ready.direct m program
  cases computes with
  | fails steps fault after ran failed ended =>
    have counted : (Frame.start .block program program.span 0).next + steps = steps := Nat.zero_add steps
    rw [counted] at stands failed ⊢
    have located : fault.locate (some location) = { fault with place := some location } := by
      rw [Fault.locate, unplaced]
      rfl
    have last : (m.direct program).execute (steps + 1) =
        (after, .failed { fault with place := some location }) := by
      rw [execute_ready ready, failed, ← located, ← stands]
      rfl
    constructor
    · intro cycles within
      refine execute_within ?_ within
      rwa [execute_ready ready]
    · intro cycles more
      rw [execute_beyond _ more, last]
      · exact ⟨rfl, ended⟩
      · rw [last]
        simp

/-- A formula that is written in a text, in postfix form with blanks or line breaks between its words,
is computed by a direct run of the text. If it has a value, the run stops after one cycle for each word
and one more, with the value on those that were there and all else as it was. Otherwise the run ends
with the fault of the first operator that fails, at the place of that operator. -/
theorem postfix_computes (m : Machine) (formula : Formula) (source text : String)
    (tokens : List Token) (writes : Token.Writes source 1 0 tokens text.toList)
    (spelled : tokens.map Token.text = formula.words) :
    let start := m.direct (.ofText source text)
    (∀ value, formula.eval 0 = .ok value →
      (∀ cycles ≤ formula.words.length, (start.execute cycles).2 = .running) ∧
      ∀ cycles > formula.words.length, start.execute cycles =
        ({ m.stop with
            store := { m.stop.store with values := m.store.values.push value }
            fault := none }, .stopped)) ∧
    ∀ place fault, formula.eval 0 = .error (place, fault) →
      ∃ token, tokens[place]? = some token ∧ Formula.IsOperator token.text ∧
        (∀ cycles ≤ place, (start.execute cycles).2 = .running) ∧
        ∀ cycles > place,
          (start.execute cycles).2 = .failed { fault with place := some token.place } ∧
          (start.execute cycles).1.isRunning = false := by
  intro start
  obtain ⟨size, ops, places⟩ := Program.ofText_writes writes
  have length : formula.words.length = tokens.length := by rw [← spelled, List.length_map]
  have ahead : (Frame.start .block (.ofText source text) (Program.ofText source text).span 0).ahead =
      formula.ops ++ [] := by
    rw [List.append_nil, ← formula.sequence_words, ← spelled, ← ops]
    rfl
  have computes := formula_computes formula (.direct m (.ofText source text)) rfl rfl ahead
  change start.Computes _ [] _ (formula.eval 0) at computes
  constructor
  · intro value evaluated
    rw [evaluated] at computes
    cases computes with
    | value _ ran => exact direct_stops (Nat.le_of_eq (size.trans length.symm)) ran
  · intro place fault failed
    obtain ⟨unplaced, steps, word, same, there, operates⟩ := Formula.eval_fails failed
    obtain rfl : place = steps := same.trans (Nat.zero_add steps)
    rw [← spelled, List.getElem?_map] at there
    obtain ⟨token, found, rfl⟩ := Option.map_eq_some_iff.mp there
    have stands : (Program.ofText source text).location? place = some token.place := by
      rw [places, found]
      rfl
    rw [failed] at computes
    exact ⟨token, found, operates, direct_fails computes unplaced stands⟩

theorem isWord_three : Lexeme.IsWord "3".toList where
  nonempty := by decide
  unblank := by simp; decide
  unquoted := by simp; decide
  plain := by decide

theorem isWord_sign (operator : Operator) : Lexeme.IsWord (Formula.sign operator).toList := by
  cases operator <;>
    exact ⟨by decide, by simp [Formula.sign]; decide, by simp [Formula.sign]; decide, by decide⟩

theorem readNumber_three : readNumber? "3" = some 3.0 := by decide +kernel

/-- A number and a literal, and an operator on the next line: they can be compared, but not added. -/
theorem postfix_computes_lines :
    let m : Machine := { store := { values := .ofList [.string "s"] } }
    let formula (operator : Operator) : Formula :=
      .binary operator (.number "3" 3.0 readNumber_three) (.literal '\'' rfl "x")
    let text (operator : Operator) : String := "3 'x'\n\t" ++ Formula.sign operator
    let tokens (operator : Operator) : List Token :=
      [⟨⟨"t", 1, ⟨0, 1⟩⟩, "3"⟩, ⟨⟨"t", 1, ⟨2, 5⟩⟩, "'x'"⟩, ⟨⟨"t", 2, ⟨1, 2⟩⟩, Formula.sign operator⟩]
    (∀ operator, Token.Writes "t" 1 0 (tokens operator) (text operator).toList ∧
      (tokens operator).map Token.text = (formula operator).words) ∧
    ((formula .equal).eval 0 = .ok (.number 0.0) ∧
      (m.direct (.ofText "t" (text .equal))).execute 4 =
        ({ m with store := { values := .ofList [.number 0.0, .string "s"] } }, .stopped)) ∧
    (formula .sum).eval 0 = .error (2, .notNumber "x") ∧
      ((m.direct (.ofText "t" (text .sum))).execute 3).2 =
        .failed { Fault.notNumber "x" with place := some ⟨"t", 2, ⟨1, 2⟩⟩ } := by
  intro m formula text tokens
  have writes : ∀ operator, Token.Writes "t" 1 0 (tokens operator) (text operator).toList := by
    intro operator
    have quotes : isQuote '\'' = true := by decide
    have closed : Lexeme.FirstFree '\'' (['x'] ++ ['\'']) (some 1) := by
      refine ⟨⟨rfl, rfl⟩, ?_⟩
      intro earlier less free
      rw [Nat.lt_one_iff.mp less] at free
      cases free.1
    have width : (Formula.sign operator).toList.length = 1 := by cases operator <;> decide
    have third := @Token.Writes.token "t" 2 1 [] _ [] _ (.word (isWord_sign operator)) (by simp)
      (.ends _ _)
    have tab := @Token.Writes.blank "t" 2 0 _ '\t' _ (by decide) (by decide) third
    have second := @Token.Writes.token "t" 1 2 _ _ _ _ (.literal quotes closed (by decide))
      (by simp; decide) (.newline tab)
    have gap := @Token.Writes.blank "t" 1 1 _ ' ' _ (by decide) (by decide) second
    have first := @Token.Writes.token "t" 1 0 _ _ _ _ (.word isWord_three) (by simp; decide) gap
    rw [width] at first
    refine Eq.mp (congrArg (Token.Writes "t" 1 0 (tokens operator)) ?_) first
    cases operator <;> decide +kernel
  have spelled : ∀ operator, (tokens operator).map Token.text = (formula operator).words := by
    intro operator
    rfl
  have value : (formula .equal).eval 0 = .ok (.number 0.0) := by
    have differ : (Value.compare? (.number 3.0) (.string "x") == some .eq) = false := by decide +kernel
    exact congrArg (fun same => Except.ok (Value.ofBool same)) differ
  have failure : (formula .sum).eval 0 = .error (2, .notNumber "x") := by rfl
  refine ⟨fun operator => ⟨writes operator, spelled operator⟩, ⟨value, ?_⟩, failure, ?_⟩
  · have computes := (postfix_computes m (formula .equal) "t" (text .equal) (tokens .equal)
      (writes .equal) (spelled .equal)).1 _ value
    exact computes.2 4 (by decide)
  · obtain ⟨token, found, -, -, ended⟩ := (postfix_computes m (formula .sum) "t" (text .sum)
      (tokens .sum) (writes .sum) (spelled .sum)).2 _ _ failure
    obtain rfl := Option.some.inj found
    exact (ended 3 (by decide)).1

end Machine
end StackScript
